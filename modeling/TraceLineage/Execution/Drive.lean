import TraceLineage.Execution.Program

/-!
# Driving programs

The state that programs act on, the effect of each operation, and what it means to enter a frame, to
leave it, to step out of it at a suspension, and to drop it.  `Prog.poll` runs a program up to its
next suspension; `Prog.run` runs it through.

A scope that suspends takes its context along and gives the one around it back, so that every poll
finds the context of its own unit in place and leaves no trace of it.
-/

namespace TraceLineage

/-- The state that programs act on: the context in scope, the facilities, and whatever the host
keeps. -/
structure World (σ : Type) where
  ambient : Option Context
  facilities : Facilities
  host : σ

namespace World

variable {σ : Type}

def traceId? (w : World σ) : Option TraceId :=
  w.ambient.bind Context.get?

def clear (w : World σ) : World σ :=
  { w with ambient := w.ambient.map fun _ => .empty }

/-- Makes the last of some spans current. -/
def withSpans (w : World σ) (path : List Span) : World σ :=
  { w with facilities := { w.facilities with spans := path } }

/-- The effect and the result of an operation. -/
def perform {γ : Type} (w : World σ) : Op γ → γ × World σ
  | .snapshot => (w.ambient, w)
  | .set id =>
    match w.ambient with
    | none => (.error .noContext, w)
    | some ctx =>
      match ctx.set id with
      | .ok ctx => (.ok (), { w with ambient := some ctx })
      | .error e => (.error (.state e), w)
  | .put key value =>
    match w.ambient with
    | none => (.error .noContext, w)
    | some ctx => (.ok (), { w with ambient := some (ctx.put key value) })
  | .clear => ((), w.clear)
  | .resolve c b =>
    match w.ambient with
    | none => (.error .noContext, w)
    | some ctx =>
      let (r, ctx, f) := c.resolve b ctx w.facilities
      (r, { w with ambient := some ctx, facilities := f })
  | .resolveIn c b ctx =>
    let (r, ctx, f) := c.resolve b ctx w.facilities
    ((r, ctx), { w with facilities := f })
  | .generate c i parent =>
    let (r, f) := w.facilities.generate (c.scheme i) parent
    (r, { w with facilities := f })
  | .emit e => ((), { w with facilities := w.facilities.emit e })
  | .spans => (w.facilities.spans, w)

end World

namespace Frame

variable {σ : Type}

/-- The state inside a frame. -/
def enter (fr : Frame) (w : World σ) : World σ :=
  match fr with
  | scope ctx => { w with ambient := some ctx }
  | guard _ => w
  | span path => w.withSpans path
  | detached => { w with ambient := none }.withSpans []
  | extent => w

/-- Puts back what a frame had replaced: `w` is the state in front of the frame, `v` the one inside
it at the end. -/
def restore (fr : Frame) (w v : World σ) : World σ :=
  match fr with
  | scope _ => { v with ambient := w.ambient }
  | guard _ => v
  | span _ => v.withSpans w.facilities.spans
  | detached => { v with ambient := w.ambient }.withSpans w.facilities.spans
  | extent => v

/-- The state behind a frame whose part has ended. -/
def leave (fr : Frame) (w v : World σ) : World σ :=
  match fr with
  | guard _ => v.clear
  | fr => fr.restore w v

/-- The frame to enter at the next poll, given the state inside it at the suspension. -/
def parked (fr : Frame) (v : World σ) : Frame :=
  match fr with
  | scope ctx => scope (v.ambient.getD ctx)
  | guard _ => guard true
  | fr => fr

/-- The state behind a frame that is dropped while suspended. -/
def abandon (fr : Frame) (w v : World σ) : World σ :=
  match fr with
  | guard true => v.clear
  | fr => fr.restore w v

end Frame

/-- What a poll leaves: the exit of the program or the rest of it. -/
inductive Step (H : Type → Type) (α : Type) : Type 1 where
  | finished (x : Exit α)
  | pending (rest : Prog H α)

/-- How a host answers requests; `none` as long as it has no answer. -/
abbrev Handler (H : Type → Type) (σ : Type) :=
  (γ : Type) → H γ → World σ → Option (Exit γ) × World σ

namespace Prog

variable {H : Type → Type} {σ : Type}

/-- Drops a suspended program: the guards that have begun clear their contexts, from the inside
out. -/
def drop : {α : Type} → Prog H α → World σ → World σ
  | _, frame fr body _, w => fr.abandon w (body.drop (fr.enter w))
  | _, _, w => w

/-- Whether a suspended program could not go on in a state: it waits for an answer that the host
does not have, or forever. -/
def isBlocked (h : Handler H σ) (w : World σ) : {α : Type} → Prog H α → Bool
  | _, never => true
  | _, host r _ => (h _ r w).1.isNone
  | _, frame _ body _ => body.isBlocked h w
  | _, _ => false

/-- Runs a program up to its next suspension or, with `through`, up to its end.  A request without
an answer is a suspension in front of the request, which no run on the spot goes beyond. -/
def drive (h : Handler H σ) : {α : Type} → Prog H α → Bool → World σ → Step H α × World σ
  | _, done x, _, w => (.finished x, w)
  | _, suspend rest, through, w =>
    if through then rest.drive h through w else (.pending rest, w)
  | _, never, _, w => (.pending never, w)
  | _, op o next, through, w =>
    let (r, v) := w.perform o
    (next r).drive h through v
  | _, host r next, through, w =>
    match h _ r w with
    | (some (.value a), v) => (next a).drive h through v
    | (some (.panic p), v) => (.finished (.panic p), v)
    | (none, v) => (.pending (host r next), v)
  | _, frame fr body next, through, w =>
    match body.drive h through (fr.enter w) with
    | (.finished x, v) => (next x).drive h through (fr.leave w v)
    | (.pending rest, v) => (.pending (frame (fr.parked v) rest next), fr.restore w v)
  | _, block body next, through, w =>
    match body.drive h true w with
    | (.finished x, v) => (next (some x)).drive h through v
    | (.pending rest, v) => (next none).drive h through (rest.drop v)

/-- Goes on behind a step that has ended with a value; a panic or a suspension is passed on. -/
def andThen {α β : Type} (h : Handler H σ) (through : Bool) (f : α → Prog H β) :
    Step H α × World σ → Step H β × World σ
  | (.finished (.value a), v) => (f a).drive h through v
  | (.finished (.panic p), v) => (.finished (.panic p), v)
  | (.pending rest, v) => (.pending (rest.bind f), v)

/-- Driving a program and its continuation is driving the one and going on with the other. -/
theorem drive_bind
    {α β : Type} (h : Handler H σ) (p : Prog H α) (f : α → Prog H β) (through : Bool)
    (w : World σ) :
    (p.bind f).drive h through w = andThen h through f (p.drive h through w) := by
  induction p generalizing w with
  | done x => cases x <;> rfl
  | suspend rest ih =>
    cases through
    · rfl
    · simpa [bind, drive] using ih f w
  | never => rfl
  | op o next ih => simp [bind, drive, ih]
  | host r next ih =>
    simp only [bind, drive]
    split <;> simp [ih, andThen, bind]
  | frame fr body next _ ih =>
    simp only [bind, drive]
    split <;> simp [ih, andThen, bind]
  | block body next _ ih =>
    simp only [bind, drive]
    split <;> simp [ih]

/-- Runs a program up to its next suspension. -/
def poll {α : Type} (h : Handler H σ) (p : Prog H α) (w : World σ) : Step H α × World σ :=
  p.drive h false w

/-- Runs a program through its suspensions; `none` if that does not bring it to an end, and then it
is dropped. -/
def run {α : Type} (h : Handler H σ) (p : Prog H α) (w : World σ) : Option (Exit α) × World σ :=
  match p.drive h true w with
  | (.finished x, v) => (some x, v)
  | (.pending rest, v) => (none, rest.drop v)

/-- Polls a program up to `n` times and then drops what remains. -/
def pollUpTo {α : Type} (h : Handler H σ) :
    Nat → Prog H α → World σ → Option (Exit α) × World σ
  | 0, p, w => (none, p.drop w)
  | n + 1, p, w =>
    match p.poll h w with
    | (.finished x, v) => (some x, v)
    | (.pending rest, v) => rest.pollUpTo h n v

end Prog
end TraceLineage
