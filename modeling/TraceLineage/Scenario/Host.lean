import TraceLineage.Scenario.Compile

/-!
# The host of a scenario

Answers the requests of scenario programs.  A request to drive other bodies is answered by a host of
a lower level, and a host of level zero drives nothing.  No step of a scenario is ever executed
twice, so the number of its steps bounds how deeply such requests can nest.
-/

namespace TraceLineage
namespace Scenario

/-- A unit that is polled in turn with others: the rest of its program, or how it ended. -/
abbrev UnitState := Script Outcome ⊕ Outcome

abbrev State := World Bench

def dropUnits (units : List UnitState) (w : State) : State :=
  units.foldl
    (fun w u =>
      match u with
      | .inl p => p.drop w
      | .inr _ => w)
    w

/-- Polls every unit that has not ended, once and in order.  A panic ends the round. -/
def pollUnits (h : Handler Act Bench) :
    List UnitState → State → List UnitState × Option Payload × State
  | [], w => ([], none, w)
  | .inr o :: us, w =>
    let (us, p, w) := pollUnits h us w
    (.inr o :: us, p, w)
  | .inl p :: us, w =>
    match p.poll h w with
    | (.finished (.value o), w) =>
      let (us, p, w) := pollUnits h us w
      (.inr o :: us, p, w)
    | (.finished (.panic e), w) => (us, some e, w)
    | (.pending rest, w) =>
      let (us, p, w) := pollUnits h us w
      (.inl rest :: us, p, w)

/-- The outcome of a unit that has ended. -/
def outcome? : UnitState → Option Outcome
  | .inl _ => none
  | .inr o => some o

/-- Polls units round by round until all have ended, at most a number of rounds. -/
def pollRounds (h : Handler Act Bench) :
    Nat → List UnitState → State → Exit (List (Option Outcome)) × State
  | 0, us, w => (.value (us.map outcome?), dropUnits us w)
  | n + 1, us, w =>
    if us.all fun u => (outcome? u).isSome then (.value (us.map outcome?), w)
    else
      match pollUnits h us w with
      | (us, none, w) => pollRounds h n us w
      | (us, some e, w) => (.panic e, dropUnits us w)

def maxRounds : Nat := 1000

/-- The exit of a program that is run through, with a value for one that does not end so. -/
def runThrough {α : Type} (h : Handler Act Bench) (stuck : α) (p : Script α) (w : State) :
    Exit α × State :=
  let (x, w) := p.run h w
  (x.getD (.value stuck), w)

/-- Drives other bodies, whose own requests go to `h`. -/
def drive (c : Config) (h : Handler Act Bench) {γ : Type} (d : Drive γ) (w : State) :
    Exit γ × State :=
  match d with
  | .perform t =>
    runThrough h () (Snapshot.task c t.snapshot (Script.work (Script.ofSteps c t.body))) w
  | .interleave units =>
    pollRounds h maxRounds
      (units.map fun u => .inl (Ambient.inContext u.1 (Script.ofSteps c u.2))) w
  | .cancel polls body =>
    match (Script.ofSteps c body).pollUpTo h polls w with
    | (none, w) => (.value none, w)
    | (some (.value o), w) => (.value (some o), w)
    | (some (.panic e), w) => (.panic e, w)

/-- Answers requests, given an answer to those that drive other bodies. -/
def answer (driven : (γ : Type) → Drive γ → State → Exit γ × State) : Handler Act Bench :=
  fun _ r w =>
    match r with
    | .errand e =>
      let (a, b) := w.host.run w.facilities e
      (some (.value a), { w with host := b })
    | .drive d =>
      let (x, w) := driven _ d w
      (some x, w)
    | .wait e =>
      let (a, b) := w.host.answer? e
      (a.map .value, { w with host := b })

def host (c : Config) : Nat → Handler Act Bench
  | 0 => answer fun _ _ w => (.panic .other, w)
  | n + 1 => answer fun _ d w => drive c (host c n) d w

end Scenario
end TraceLineage
