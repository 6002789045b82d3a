import TraceLineage.Execution.Ambient
import TraceLineage.Proofs.Execution.Frames

/-!
# Traces

What a program does while it is driven: the operations that it performs, in order, each with its
result and with the context in scope in front of it and behind it.  A guard that ends performs an
operation like any other, and so does one that is dropped.

The depth of an operation counts the frames between it and the place where the program was started
that have a context of their own or none at all.  Operations of depth zero act on the context that
was in scope there.
-/

namespace TraceLineage

/-- An operation in its place: how many frames with a context of their own are around it, the
current span behind its ancestors, the context in scope in front of it and behind it, and its
result. -/
structure Happening : Type 1 where
  γ : Type
  depth : Nat
  spans : List Span
  before : Option Context
  op : Op γ
  result : γ
  after : Option Context

/-- An operation that is performed in a state. -/
def World.happening {σ γ : Type} (w : World σ) (depth : Nat) (o : Op γ) : Happening where
  γ := γ
  depth := depth
  spans := w.facilities.spans
  before := w.ambient
  op := o
  result := (w.perform o).1
  after := (w.perform o).2.ambient

namespace Frame

variable {σ : Type}

/-- By how much a frame deepens what is inside it. -/
def depth (fr : Frame) : Nat :=
  if fr.hidesContext = true then 1 else 0

theorem depth_parked
    (fr : Frame) (v : World σ) :
    (fr.parked v).depth = fr.depth := by
  rw [depth, fr.hidesContext_parked, depth]

/-- What a frame performs itself when its part has ended in a state. -/
def leaveTrace (fr : Frame) (depth : Nat) (v : World σ) : List Happening :=
  match fr with
  | guard _ => [v.happening depth .clear]
  | _ => []

/-- What a frame performs itself when it is dropped, its part being dropped already. -/
def abandonTrace (fr : Frame) (depth : Nat) (v : World σ) : List Happening :=
  match fr with
  | guard true => [v.happening depth .clear]
  | _ => []

theorem leaveTrace_of_not_guard
    {fr : Frame} (hfr : fr.isGuard = false) (d : Nat) (v : World σ) :
    fr.leaveTrace d v = [] := by
  cases fr with
  | guard begun => exact absurd hfr.symm Bool.false_ne_true
  | _ => rfl

theorem abandonTrace_of_not_guard
    {fr : Frame} (hfr : fr.isGuard = false) (d : Nat) (v : World σ) :
    fr.abandonTrace d v = [] := by
  cases fr with
  | guard begun => exact absurd hfr.symm Bool.false_ne_true
  | _ => rfl

end Frame

namespace Prog

variable {H : Type → Type} {σ : Type}

/-- What is performed when a suspended program is dropped. -/
def dropTrace : {α : Type} → Prog H α → Nat → World σ → List Happening
  | _, frame fr body _, d, w =>
    body.dropTrace (d + fr.depth) (fr.enter w) ++ fr.abandonTrace d (body.drop (fr.enter w))
  | _, _, _, _ => []

/-- What a program performs when it is driven. -/
def trace (h : Handler H σ) : {α : Type} → Prog H α → Bool → Nat → World σ → List Happening
  | _, done _, _, _, _ => []
  | _, suspend rest, through, d, w => if through then rest.trace h through d w else []
  | _, never, _, _, _ => []
  | _, op o next, through, d, w =>
    w.happening d o :: (next (w.perform o).1).trace h through d (w.perform o).2
  | _, host r next, through, d, w =>
    match h _ r w with
    | (some (.value a), v) => (next a).trace h through d v
    | _ => []
  | _, frame fr body next, through, d, w =>
    body.trace h through (d + fr.depth) (fr.enter w) ++
      match body.drive h through (fr.enter w) with
      | (.finished x, v) => fr.leaveTrace d v ++ (next x).trace h through d (fr.leave w v)
      | (.pending _, _) => []
  | _, block body next, through, d, w =>
    body.trace h true d w ++
      match body.drive h true w with
      | (.finished x, v) => (next (some x)).trace h through d v
      | (.pending rest, v) => rest.dropTrace d v ++ (next none).trace h through d (rest.drop v)

/-- What is performed behind a step that has ended with a value. -/
def traceAfter {α β : Type} (h : Handler H σ) (through : Bool) (d : Nat) (f : α → Prog H β) :
    Step H α × World σ → List Happening
  | (.finished (.value a), v) => (f a).trace h through d v
  | _ => []

/-- A program and its continuation perform what the one performs and then the other. -/
theorem trace_bind
    {α β : Type} (h : Handler H σ) (p : Prog H α) (f : α → Prog H β) (through : Bool) (d : Nat)
    (w : World σ) :
    (p.bind f).trace h through d w =
      p.trace h through d w ++ traceAfter h through d f (p.drive h through w) := by
  induction p generalizing w with
  | done x => cases x <;> rfl
  | suspend rest ih =>
    cases through
    · rfl
    · simpa [bind, trace, drive] using ih f w
  | never => rfl
  | op o next ih => simp [bind, trace, drive, ih]
  | host r next ih =>
    rcases hr : h _ r w with ⟨_ | a | e, v⟩ <;> simp [bind, trace, drive, hr, ih, traceAfter]
  | frame fr body next _ ih =>
    rcases hb : body.drive h through (fr.enter w) with ⟨x | rest, v⟩ <;>
      simp [bind, trace, drive, hb, ih, traceAfter]
  | block body next _ ih =>
    rcases hb : body.drive h true w with ⟨x | rest, v⟩ <;>
      simp [bind, trace, drive, hb, ih]

end Prog
end TraceLineage
