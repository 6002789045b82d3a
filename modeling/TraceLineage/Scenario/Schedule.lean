import TraceLineage.Scenario.Host

/-!
# Spawned tasks

A scenario runs on one thread that its main body shares with the tasks that it spawns.  Whoever is
polled keeps the thread up to the next suspension.  Tasks take turns in a line: one that is spawned,
one that has suspended, and one whose wait is over go to the end of it.  Tasks that are spawned on a
thread of the pool line up apart.  They come when the line is empty, and every so often before it.

The main body has the thread while it runs.  When it is suspended, tasks are polled until none is
left or a turn is over; then the main body is polled again, unless it still waits for a task.  A
task that has had all the answers that fit between two suspensions rests for the remainder of the
turn.

Tasks are polled while the main body is suspended, that is, outside every context and span.
-/

namespace TraceLineage
namespace Scenario

/-- A task that has been started and has not ended. -/
structure Runner where
  number : Nat
  program : Script (Except Fault Outcome)

/-- The tasks that have been started and have not ended: those in line to be polled, those that were
spawned on a thread of the pool and have not been polled yet, those that wait, and those that rest
until the next turn; and how many more times one is looked for in this turn. -/
structure Schedule where
  line : List Runner := []
  arrivals : List Runner := []
  waiting : List Runner := []
  resting : List Runner := []
  looks : Nat := 0
  left : Nat := 0

namespace Schedule

/-- How many times a task is looked for in a turn. -/
def turn : Nat := 61

/-- Each time a task has been looked for so often, an arrival comes before the line. -/
def arrivalInterval : Nat := 31

def ofLine? (s : Schedule) : Option (Runner × Schedule) :=
  match s.line with
  | [] => none
  | r :: line => some (r, { s with line })

def ofArrivals? (s : Schedule) : Option (Runner × Schedule) :=
  match s.arrivals with
  | [] => none
  | r :: arrivals => some (r, { s with arrivals })

/-- Looks for a task; there is none if nobody is left or the turn is over. -/
def next (s : Schedule) : Option Runner × Schedule :=
  match s.left with
  | 0 => (none, s)
  | left + 1 =>
    let s := { s with looks := s.looks + 1, left }
    let found? :=
      if s.looks % arrivalInterval = 0 then s.ofArrivals?.or s.ofLine?
      else s.ofLine?.or s.ofArrivals?
    match found? with
    | some (r, s) => (some r, s)
    | none => (none, s)

/-- Begins a turn: those that rest line up, the latest first. -/
def newTurn (s : Schedule) : Schedule :=
  { s with line := s.line ++ s.resting.reverse, resting := [], left := turn }

/-- Takes in the tasks that have been spawned in the meantime. -/
def enlist (s : Schedule) (c : Config) (w : State) : Schedule × State :=
  let (spawned, bench) := w.host.start
  let runner (t : Nat × Spawned) : Runner :=
    ⟨t.1, t.2.task.snapshot.run c (Script.ofSteps c t.2.task.body)⟩
  let (abroad, home) := spawned.partition fun t => t.2.abroad
  ({ s with
      line := s.line ++ home.map runner
      arrivals := s.arrivals ++ abroad.map runner },
    { w with host := bench })

/-- Lines up everyone whose wait is over. -/
def wake (s : Schedule) (h : Handler Act Bench) (w : State) : Schedule :=
  let (waiting, woken) := s.waiting.partition fun r => r.program.isBlocked h w
  { s with line := s.line ++ woken, waiting }

/-- Polls a task. -/
def poll (s : Schedule) (c : Config) (h : Handler Act Bench) (r : Runner) (w : State) :
    Schedule × State :=
  match r.program.poll h w with
  | (.finished x, w) =>
    let (s, w) := s.enlist c { w with host := (w.host.settle r.number x).rest }
    (s.wake h w, w)
  | (.pending program, v) =>
    let r := { r with program }
    let (s, w) := s.enlist c { v with host := v.host.rest }
    if program.isBlocked h v then
      if v.host.answersLeft = 0 then ({ s with resting := s.resting ++ [r] }, w)
      else ({ s with waiting := s.waiting ++ [r] }, w)
    else ({ s with line := s.line ++ [r] }, w)

/-- Runs a main body among tasks: at most `n` times somebody is polled or a turn begins.  The result
is `none` if the main body waits and nobody else can go on. -/
def run (c : Config) (h : Handler Act Bench) :
    (n : Nat) → Script Outcome → Schedule → State → Option (Exit Outcome) × State
  | 0, main, _, w => (none, main.drop w)
  | n + 1, main, s, w =>
    match s.next with
    | (some r, s) =>
      let (s, w) := s.poll c h r w
      run c h n main s w
    | (none, s) =>
      let s := s.newTurn
      if main.isBlocked h w then
        if s.line.isEmpty && s.arrivals.isEmpty then (none, main.drop w)
        else run c h n main s w
      else
        match main.poll h w with
        | (.finished x, w) => (some x, w)
        | (.pending main, w) =>
          let (s, w) := s.enlist c { w with host := w.host.rest }
          run c h n main s w

end Schedule
end Scenario
end TraceLineage
