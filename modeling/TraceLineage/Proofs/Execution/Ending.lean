import TraceLineage.Proofs.Execution.Inside
import TraceLineage.Proofs.Execution.Records
import TraceLineage.Proofs.Execution.Replay

/-!
# Endings of programs

What comes of a program that is run through can be told from its parts, by one equation for each way
of composing programs.  Programs come to the same if these equations say so, among them a program
and the same program without its suspensions.

The host of such a program is prompt.  It answers every request at once, so that a program that has
to wait for something is one that suspends before it asks.
-/

namespace TraceLineage

/-- A host that answers every request at once and opens or closes neither a scope nor a span. -/
structure Handler.Prompt {H : Type → Type} {σ : Type} (h : Handler H σ) : Prop where
  answers : ∀ (γ : Type) (r : H γ) (w : World σ), (h γ r w).1.isSome = true
  keepsScope : h.KeepsScope
  keepsSpans : h.KeepsSpans

theorem Handler.Prompt.eq_value_or
    {H : Type → Type} {σ γ : Type} {h : Handler H σ} (hh : h.Prompt) (r : H γ) (w : World σ) :
    (∃ a v, h γ r w = (some (.value a), v)) ∨ ∃ p v, h γ r w = (some (.panic p), v) := by
  have hanswer := hh.answers γ r w
  rcases hr : h γ r w with ⟨_ | a | p, v⟩
  · rw [hr] at hanswer
    exact nomatch hanswer
  · exact Or.inl ⟨a, v, rfl⟩
  · exact Or.inr ⟨p, v, rfl⟩

theorem LocalHost.prompt
    {H : Type → Type} {σ : Type} {k : LocalHost H σ}
    (hk : ∀ (γ : Type) (r : H γ) (s : σ), (k.answer γ r s).1.isSome = true) :
    k.handler.Prompt where
  answers γ r w := hk γ r w.host
  keepsScope := k.sparesContext.keepsScope
  keepsSpans _ _ _ := rfl

/-! ## Suspended frames -/

namespace Frame

variable {σ : Type}

/-- A frame that is entered again finds the state in which it was suspended. -/
theorem enter_parked
    (fr : Frame) {w v : World σ} (hambient : v.ambient.isSome = (fr.enter w).ambient.isSome)
    (hspans : v.facilities.spans = (fr.enter w).facilities.spans) :
    (fr.parked v).enter (fr.restore w v) = v := by
  obtain ⟨ambient, ⟨source, minted, spans, records⟩, host⟩ := v
  cases fr with
  | scope ctx =>
    obtain ⟨kept, rfl⟩ : ∃ kept, ambient = some kept := Option.isSome_iff_exists.1 hambient
    rfl
  | guard begun => rfl
  | span path =>
    obtain rfl : spans = path := hspans
    rfl
  | detached =>
    obtain rfl : ambient = none :=
      Option.isNone_iff_eq_none.1 (Option.isSome_eq_false_iff.1 hambient)
    obtain rfl : spans = [] := hspans
    rfl
  | extent => rfl

theorem leave_parked
    (fr : Frame) (w v u : World σ) :
    (fr.parked v).leave (fr.restore w v) u = fr.leave w u := by
  cases fr <;> rfl

theorem leaveTrace_parked
    (fr : Frame) (d : Nat) (v u : World σ) :
    (fr.parked v).leaveTrace d u = fr.leaveTrace d u := by
  cases fr <;> rfl

/-- A frame that is dropped while suspended comes to the same end as one that is left. -/
theorem abandon_parked
    (fr : Frame) (w v u : World σ) :
    (fr.parked v).abandon (fr.restore w v) u = fr.leave w u := by
  cases fr <;> rfl

theorem abandonTrace_parked
    (fr : Frame) (d : Nat) (v u : World σ) :
    (fr.parked v).abandonTrace d u = fr.leaveTrace d u := by
  cases fr <;> rfl

end Frame

/-! ## Endings -/

/-- What has come of a program that was run through; it has no exit if it could not be brought to an
end and was dropped. -/
structure Ending (σ α : Type) : Type 1 where
  exit : Option (Exit α)
  state : World σ
  trace : List Happening

namespace Ending

variable {σ α β : Type}

/-- An ending with something performed in front. -/
def after (hs : List Happening) (e : Ending σ α) : Ending σ α :=
  { e with trace := hs ++ e.trace }

/-- What comes behind a frame: the frame is left in any case, and then the program goes on if its
part has ended. -/
def behind (fr : Frame) (d : Nat) (w : World σ) (next : Exit β → World σ → Ending σ α)
    (e : Ending σ β) : Ending σ α :=
  let v := fr.leave w e.state
  let hs := e.trace ++ fr.leaveTrace d e.state
  match e.exit with
  | some x => (next x v).after hs
  | none => ⟨none, v, hs⟩

/-- What comes behind a value; a panic ends both. -/
def andThen (next : α → World σ → Ending σ β) (e : Ending σ α) : Ending σ β :=
  match e.exit with
  | some (.value a) => (next a e.state).after e.trace
  | some (.panic p) => ⟨some (.panic p), e.state, e.trace⟩
  | none => ⟨none, e.state, e.trace⟩

theorem after_nil
    (e : Ending σ α) :
    e.after [] = e := rfl

theorem after_after
    (hs hs' : List Happening) (e : Ending σ α) :
    (e.after hs').after hs = e.after (hs ++ hs') := by
  simp only [after, List.append_assoc]

theorem behind_after
    (fr : Frame) (d : Nat) (w : World σ) (next : Exit β → World σ → Ending σ α)
    (hs : List Happening) (e : Ending σ β) :
    (e.after hs).behind fr d w next = (e.behind fr d w next).after hs := by
  rcases e with ⟨_ | x, v, hs'⟩ <;> simp only [behind, after, List.append_assoc]

theorem behind_parked
    (fr : Frame) (d : Nat) (w v : World σ) (next : Exit β → World σ → Ending σ α)
    (e : Ending σ β) :
    e.behind (fr.parked v) d (fr.restore w v) next = e.behind fr d w next := by
  simp only [behind, fr.leave_parked, fr.leaveTrace_parked]

theorem andThen_after
    (next : α → World σ → Ending σ β) (hs : List Happening) (e : Ending σ α) :
    (e.after hs).andThen next = (e.andThen next).after hs := by
  rcases e with ⟨_ | a | p, v, hs'⟩ <;> simp only [andThen, after, List.append_assoc]

theorem andThen_behind
    {γ : Type} (fr : Frame) (d : Nat) (w : World σ) (next : Exit γ → World σ → Ending σ α)
    (next' : α → World σ → Ending σ β) (e : Ending σ γ) :
    (e.behind fr d w next).andThen next' =
      e.behind fr d w fun x v => (next x v).andThen next' := by
  rcases e with ⟨_ | x, v, hs⟩
  · rfl
  · exact andThen_after next' _ _

end Ending

namespace Prog

variable {H : Type → Type} {σ α β γ : Type}

/-- What comes of a program that is run through; one that this does not bring to an end is
dropped. -/
def ending (h : Handler H σ) (p : Prog H α) (d : Nat) (w : World σ) : Ending σ α :=
  match p.drive h true w with
  | (.finished x, v) => ⟨some x, v, p.trace h true d w⟩
  | (.pending rest, v) => ⟨none, rest.drop v, p.trace h true d w ++ rest.dropTrace d v⟩

/-- A program ends when it is run through exactly if running it has an exit. -/
theorem ending_eq_iff
    (h : Handler H σ) (p : Prog H α) (d : Nat) (w v : World σ) (x : Exit α)
    (hs : List Happening) :
    p.ending h d w = ⟨some x, v, hs⟩ ↔
      p.run h w = (some x, v) ∧ p.trace h true d w = hs := by
  rw [ending, run]
  rcases p.drive h true w with ⟨y | rest, u⟩
  · simp only [Ending.mk.injEq, Prod.mk.injEq, and_assoc]
  · simp only [Ending.mk.injEq, Prod.mk.injEq, reduceCtorEq, false_and]

/-- Programs that come to the same from some point on have the same ending from there on. -/
theorem ending_congr
    {h : Handler H σ} {p q : Prog H α} {d : Nat} {w v : World σ} {hs : List Happening}
    (hdrive : p.drive h true w = q.drive h true v)
    (htrace : p.trace h true d w = hs ++ q.trace h true d v) :
    p.ending h d w = (q.ending h d v).after hs := by
  rw [ending, ending, hdrive, htrace]
  rcases q.drive h true v with ⟨x | rest, u⟩
  · rfl
  · simp only [Ending.after, List.append_assoc]

theorem state_ending
    (h : Handler H σ) (p : Prog H α) (d : Nat) (w : World σ) :
    (p.ending h d w).state = (p.run h w).2 := by
  rw [ending, run]
  rcases p.drive h true w with ⟨x | rest, v⟩ <;> rfl

/-! ### Endings of composed programs -/

section Equations

variable (h : Handler H σ) (d : Nat) (w : World σ)

theorem ending_done
    (x : Exit α) :
    (done x : Prog H α).ending h d w = ⟨some x, w, []⟩ := rfl

theorem ending_suspend
    (rest : Prog H α) :
    (suspend rest).ending h d w = rest.ending h d w := rfl

theorem ending_never :
    (never : Prog H α).ending h d w = ⟨none, w, []⟩ := rfl

theorem ending_op
    (o : Op γ) (next : γ → Prog H α) :
    (op o next).ending h d w =
      ((next (w.perform o).1).ending h d (w.perform o).2).after [w.happening d o] := by
  simp only [ending, drive, trace]
  rcases (next (w.perform o).1).drive h true (w.perform o).2 with ⟨x | rest, v⟩ <;> rfl

/-- A part that is run on the spot is run through, however the whole is driven. -/
theorem drive_block
    (body : Prog H β) (next : Option (Exit β) → Prog H α) (through : Bool) :
    let e := body.ending h d w
    (block body next).drive h through w = (next e.exit).drive h through e.state ∧
      (block body next).trace h through d w =
        e.trace ++ (next e.exit).trace h through d e.state := by
  simp only [ending, drive, trace]
  rcases body.drive h true w with ⟨x | rest, v⟩
  · exact ⟨rfl, rfl⟩
  · exact ⟨rfl, (List.append_assoc ..).symm⟩

theorem ending_block
    (body : Prog H β) (next : Option (Exit β) → Prog H α) :
    let e := body.ending h d w
    (block body next).ending h d w =
      ((next e.exit).ending h d e.state).after e.trace := by
  intro e
  obtain ⟨hdrive, htrace⟩ := drive_block h d w body next true
  exact ending_congr hdrive htrace

theorem ending_inPlace
    (body : Prog H α) :
    body.inPlace.ending h d w = body.ending h d w := by
  rw [inPlace, ending_block]
  rcases body.ending h d w with ⟨_ | x, v, hs⟩ <;>
    simp only [Option.elim, ending_done, ending_never, Ending.after, List.append_nil]

end Equations

variable {h : Handler H σ}

theorem ending_host_value
    {r : H γ} {w v : World σ} {a : γ} (hr : h γ r w = (some (.value a), v))
    (next : γ → Prog H α) (d : Nat) :
    (host r next).ending h d w = (next a).ending h d v := by
  simp only [ending, drive, trace, hr]

theorem ending_host_panic
    {r : H γ} {w v : World σ} {p : Payload} (hr : h γ r w = (some (.panic p), v))
    (next : γ → Prog H α) (d : Nat) :
    (host r next).ending h d w = ⟨some (.panic p), v, []⟩ := by
  simp only [ending, drive, trace, hr]

theorem ending_host_none
    {r : H γ} {w v : World σ} (hr : h γ r w = (none, v)) (next : γ → Prog H α) (d : Nat) :
    (host r next).ending h d w = ⟨none, v, []⟩ := by
  simp only [ending, drive, trace, hr, drop, dropTrace, List.append_nil]

/-- The equation for frames needs a host that opens and closes neither a scope nor a span: only then
the state in which a part is suspended is the one in which it is dropped. -/
theorem ending_frame_of_keeps
    (hscope : h.KeepsScope) (hspans : h.KeepsSpans) (fr : Frame) (body : Prog H β)
    (next : Exit β → Prog H α) (d : Nat) (w : World σ) :
    (frame fr body next).ending h d w =
      (body.ending h (d + fr.depth) (fr.enter w)).behind fr d w fun x v =>
        (next x).ending h d v := by
  have hscope := hscope.across.drive body true (fr.enter w)
  have hspans := hspans.across.drive body true (fr.enter w)
  simp only [ending, drive, trace]
  rcases hb : body.drive h true (fr.enter w) with ⟨x | rest, v⟩
  · simp only [Ending.behind]
    rcases (next x).drive h true (fr.leave w v) with ⟨y | rest, u⟩ <;>
      simp only [Ending.after, List.append_assoc]
  · rw [hb] at hscope hspans
    simp only [Ending.behind, drop, dropTrace, fr.enter_parked hscope hspans, fr.depth_parked,
      fr.abandon_parked, fr.abandonTrace_parked, List.append_nil, List.append_assoc]

theorem ending_frame
    (hh : h.Prompt) (fr : Frame) (body : Prog H β) (next : Exit β → Prog H α) (d : Nat)
    (w : World σ) :
    (frame fr body next).ending h d w =
      (body.ending h (d + fr.depth) (fr.enter w)).behind fr d w fun x v =>
        (next x).ending h d v :=
  ending_frame_of_keeps hh.keepsScope hh.keepsSpans fr body next d w

theorem ending_inFrame
    (hscope : h.KeepsScope) (hspans : h.KeepsSpans) (fr : Frame) (body : Prog H α) (d : Nat)
    (w : World σ) :
    let e := body.ending h (d + fr.depth) (fr.enter w)
    (body.inFrame fr).ending h d w =
      ⟨e.exit, fr.leave w e.state, e.trace ++ fr.leaveTrace d e.state⟩ := by
  intro e
  rw [inFrame, ending_frame_of_keeps hscope hspans]
  simp only [Ending.behind]
  cases e.exit with
  | none => rfl
  | some x =>
    simp only [ending_done, Ending.after, List.append_nil]
    rfl

/-- What comes of a program and its continuation is what comes of the one and then of the other. -/
theorem ending_bind_of_keeps
    (hscope : h.KeepsScope) (hspans : h.KeepsSpans) (p : Prog H α) (f : α → Prog H β) (d : Nat)
    (w : World σ) :
    (p.bind f).ending h d w = (p.ending h d w).andThen fun a v => (f a).ending h d v := by
  induction p generalizing d w with
  | done x => cases x <;> rfl
  | suspend rest ih => exact ih f d w
  | never => rfl
  | op o next ih => rw [bind, ending_op, ending_op, ih, Ending.andThen_after]
  | host r next ih =>
    rw [bind]
    rcases hr : h _ r w with ⟨_ | a | e, v⟩
    · rw [ending_host_none hr, ending_host_none hr]
      rfl
    · rw [ending_host_value hr, ending_host_value hr, ih]
    · rw [ending_host_panic hr, ending_host_panic hr]
      rfl
  | frame fr body next _ ih =>
    rw [bind, ending_frame_of_keeps hscope hspans, ending_frame_of_keeps hscope hspans,
      Ending.andThen_behind]
    simp only [ih]
  | block body next _ ih => rw [bind, ending_block, ending_block, ih, Ending.andThen_after]

theorem ending_bind
    (hh : h.Prompt) (p : Prog H α) (f : α → Prog H β) (d : Nat) (w : World σ) :
    (p.bind f).ending h d w = (p.ending h d w).andThen fun a v => (f a).ending h d v :=
  ending_bind_of_keeps hh.keepsScope hh.keepsSpans p f d w

/-! ## Suspensions do not matter -/

theorem ending_withoutYields
    (hh : h.Prompt) (p : Prog H α) (d : Nat) (w : World σ) :
    p.withoutYields.ending h d w = p.ending h d w := by
  induction p generalizing d w with
  | done x => rfl
  | suspend rest ih => rw [withoutYields, ending_suspend, ih]
  | never => rfl
  | op o next ih => rw [withoutYields, ending_op, ending_op, ih]
  | host r next ih =>
    rcases hh.eq_value_or r w with ⟨a, v, hr⟩ | ⟨e, v, hr⟩
    · rw [withoutYields, ending_host_value hr, ending_host_value hr, ih]
    · rw [withoutYields, ending_host_panic hr, ending_host_panic hr]
  | frame fr body next ihbody ihnext =>
    rw [withoutYields, ending_frame hh, ending_frame hh]
    simp only [ihbody, ihnext]
  | block body next ihbody ihnext =>
    rw [withoutYields, ending_block, ending_block, ihbody, ihnext]

/-! ## Programs that come to the same -/

/-- Programs that come to the same when they are run through, wherever that is. -/
def Alike (h : Handler H σ) (p q : Prog H α) : Prop :=
  ∀ (d : Nat) (w : World σ), p.ending h d w = q.ending h d w

namespace Alike

theorem refl
    (h : Handler H σ) (p : Prog H α) :
    Alike h p p :=
  fun _ _ => rfl

theorem symm
    {p q : Prog H α} (hpq : Alike h p q) :
    Alike h q p :=
  fun d w => (hpq d w).symm

theorem trans
    {p q r : Prog H α} (hpq : Alike h p q) (hqr : Alike h q r) :
    Alike h p r :=
  fun d w => (hpq d w).trans (hqr d w)

theorem op
    {o : Op γ} {next next' : γ → Prog H α} (hnext : ∀ r, Alike h (next r) (next' r)) :
    Alike h (.op o next) (.op o next') := by
  intro d w
  rw [ending_op, ending_op, hnext _ d]

theorem bind
    (hh : h.Prompt) {p q : Prog H α} {f g : α → Prog H β} (hpq : Alike h p q)
    (hfg : ∀ a, Alike h (f a) (g a)) :
    Alike h (p.bind f) (q.bind g) := by
  intro d w
  rw [ending_bind hh, ending_bind hh, hpq d w]
  simp only [hfg _ d _]

theorem frame
    (hh : h.Prompt) (fr : Frame) {body body' : Prog H β} {next next' : Exit β → Prog H α}
    (hbody : Alike h body body') (hnext : ∀ x, Alike h (next x) (next' x)) :
    Alike h (.frame fr body next) (.frame fr body' next') := by
  intro d w
  rw [ending_frame hh, ending_frame hh, hbody _ _]
  simp only [hnext _ d _]

end Alike

end Prog
end TraceLineage
