import TraceLineage.Proofs.Execution.Across
import TraceLineage.Proofs.Execution.Trace

/-!
# Inside a frame

A scope, a span and a guard do what the part inside them does in the state inside them.  Two parts
that come to the same inside do so in frames around them, even in scopes with different contexts:
when such a part suspends, the scope keeps the context in scope at that time.
-/

namespace TraceLineage

/-- The state inside some spans, the same state if there are none. -/
def World.under {σ : Type} (w : World σ) (path : List Span) : World σ :=
  match path with
  | [] => w
  | path => w.withSpans path

/-- Facilities that were left inside some spans, seen there again from outside. -/
theorem World.under_of_spans
    {σ : Type} {w : World σ} {path : List Span} {f : Facilities}
    (hf : f.spans = (w.under path).facilities.spans) :
    ({ w with facilities := { f with spans := w.facilities.spans } } : World σ).under path =
      { w.under path with facilities := f } := by
  cases path with
  | nil =>
    simp only [under] at hf ⊢
    rw [← hf]
  | cons s path =>
    simp only [under, withSpans] at hf ⊢
    rw [← hf]

/-- The state inside a scope inside some spans. -/
def World.within {σ : Type} (w : World σ) (path : List Span) (ctx : Context) : World σ :=
  { w.under path with ambient := some ctx }

theorem World.source_under
    {σ : Type} (w : World σ) (path : List Span) :
    (w.under path).facilities.source = w.facilities.source := by
  cases path <;> rfl

theorem World.ambient_under
    {σ : Type} (w : World σ) (path : List Span) :
    (w.under path).ambient = w.ambient := by
  cases path <;> rfl

theorem World.host_under
    {σ : Type} (w : World σ) (path : List Span) :
    (w.under path).host = w.host := by
  cases path <;> rfl

namespace Ambient

variable {H : Type → Type} {σ α : Type} {h : Handler H σ}

theorem underSpans_of_ne_nil
    {path : List Span} (hpath : path ≠ []) (body : Prog H α) :
    underSpans path body = body.inFrame (.span path) := by
  cases path with
  | nil => exact absurd rfl hpath
  | cons s path => rfl

theorem trace_inContext
    (ctx : Context) (body : Prog H α) (through : Bool) (d : Nat) (w : World σ) :
    (inContext ctx body).trace h through d w =
      body.trace h through (d + 1) { w with ambient := some ctx } := by
  simp only [inContext, Prog.inFrame, Prog.trace, Frame.enter]
  rcases body.drive h through { w with ambient := some ctx } with ⟨x | rest, v⟩ <;>
    exact List.append_nil _

theorem trace_underSpans
    (path : List Span) (body : Prog H α) (through : Bool) (d : Nat) (w : World σ) :
    (underSpans path body).trace h through d w = body.trace h through d (w.under path) := by
  cases path with
  | nil => rfl
  | cons s path =>
    simp only [underSpans, Prog.inFrame, Prog.trace, Frame.enter, World.under]
    rcases body.drive h through (w.withSpans (s :: path)) with ⟨x | rest, v⟩ <;>
      exact List.append_nil _

/-- A scope puts back the context around it, and takes its own along when it suspends. -/
theorem drive_inContext
    (ctx : Context) (body : Prog H α) (through : Bool) (w : World σ) :
    (inContext ctx body).drive h through w =
      match body.drive h through { w with ambient := some ctx } with
      | (.finished x, v) => (.finished x, { v with ambient := w.ambient })
      | (.pending rest, v) =>
        (.pending (inContext (v.ambient.getD ctx) rest), { v with ambient := w.ambient }) := by
  simp only [inContext, Prog.inFrame, Prog.drive, Frame.enter]
  rcases body.drive h through { w with ambient := some ctx } with ⟨x | rest, v⟩ <;> rfl

/-- A scope that suspends inside spans keeps the context in scope at that time. -/
theorem step_underSpans_inContext
    (path : List Span) (ctx : Context) (body : Prog H α) (through : Bool) (w : World σ) :
    ((underSpans path (inContext ctx body)).drive h through w).1 =
      match body.drive h through (w.within path ctx) with
      | (.finished x, _) => .finished x
      | (.pending rest, v) =>
        .pending (underSpans path (inContext (v.ambient.getD ctx) rest)) := by
  cases path with
  | nil =>
    simp only [underSpans, inContext, Prog.inFrame, Prog.drive, Frame.enter, World.within,
      World.under]
    rcases body.drive h through { w with ambient := some ctx } with ⟨x | rest, v⟩ <;> rfl
  | cons s path =>
    simp only [underSpans, inContext, Prog.inFrame, Prog.drive, Frame.enter, World.within,
      World.under]
    rcases body.drive h through { w.withSpans (s :: path) with ambient := some ctx } with
      ⟨x | rest, v⟩ <;> rfl

variable {body body' : Prog H α} {through : Bool} {w w' : World σ}

theorem drive_inContext_congr
    (hh : h.KeepsScope) {ctx ctx' : Context} (hambient : w'.ambient = w.ambient)
    (hbody : body.drive h through { w with ambient := some ctx } =
      body'.drive h through { w' with ambient := some ctx' }) :
    (inContext ctx body).drive h through w = (inContext ctx' body').drive h through w' := by
  have hopen := hh.across.drive body' through { w' with ambient := some ctx' }
  simp only [inContext, Prog.inFrame, Prog.drive, Frame.enter, hbody]
  rcases hb : body'.drive h through { w' with ambient := some ctx' } with ⟨x | rest, v⟩
  · simp only [Frame.leave, Frame.restore, hambient]
  · rw [hb] at hopen
    -- a suspended scope keeps the context inside it, not the one that it has begun with
    obtain ⟨kept, hkept⟩ : ∃ kept, v.ambient = some kept := Option.isSome_iff_exists.1 hopen
    simp only [Frame.restore, Frame.parked, hambient, hkept, Option.getD_some]

theorem drive_underSpans_congr
    {path : List Span} (hspans : w'.facilities.spans = w.facilities.spans)
    (hbody : body.drive h through (w.under path) = body'.drive h through (w'.under path)) :
    (underSpans path body).drive h through w = (underSpans path body').drive h through w' := by
  cases path with
  | nil => exact hbody
  | cons s path =>
    simp only [World.under] at hbody
    simp only [underSpans, Prog.inFrame, Prog.drive, Frame.enter, hbody]
    rcases body'.drive h through (w'.withSpans (s :: path)) with ⟨x | rest, v⟩ <;>
      simp only [Frame.leave, Frame.restore, Frame.parked, hspans]

theorem drive_guarded_congr
    (hbody : body.drive h through w = body'.drive h through w') :
    (guarded body).drive h through w = (guarded body').drive h through w' := by
  simp only [guarded, Prog.inFrame, Prog.drive, Frame.enter, hbody]
  rcases body'.drive h through w' with ⟨x | rest, v⟩ <;> rfl

/-- A guard performs what the part inside it performs, and clears at the end. -/
theorem trace_guarded_congr
    (hs : List Happening) (d : Nat)
    (hbody : body.drive h through w = body'.drive h through w')
    (htrace : body.trace h through d w = hs ++ body'.trace h through d w') :
    (guarded body).trace h through d w = hs ++ (guarded body').trace h through d w' := by
  have hdepth : d + (Frame.guard false).depth = d := rfl
  simp only [guarded, Prog.inFrame, Prog.trace, Frame.enter, hdepth, hbody, htrace]
  exact List.append_assoc ..

end Ambient

namespace Prog

variable {H : Type → Type} {σ α β : Type} {h : Handler H σ}

theorem drive_inPlace
    (body : Prog H α) (through : Bool) (w : World σ) :
    body.inPlace.drive h through w =
      match body.run h w with
      | (some x, v) => (.finished x, v)
      | (none, v) => (.pending .never, v) := by
  simp only [inPlace, drive, run]
  rcases body.drive h true w with ⟨x | rest, v⟩ <;> rfl

/-- Behind a part that is run on the spot the program goes on with its value; without an exit it
never goes on. -/
theorem drive_inPlace_bind
    (body : Prog H α) (f : α → Prog H β) (through : Bool) (w : World σ) :
    (body.inPlace.bind f).drive h through w =
      match body.run h w with
      | (some (.value a), v) => (f a).drive h through v
      | (some (.panic e), v) => (.finished (.panic e), v)
      | (none, v) => (.pending .never, v) := by
  rw [drive_bind, drive_inPlace]
  rcases body.run h w with ⟨_ | a | e, v⟩ <;> rfl

end Prog
end TraceLineage
