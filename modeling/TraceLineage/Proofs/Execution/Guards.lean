import TraceLineage.Proofs.Execution.Cells
import TraceLineage.Proofs.Execution.Life
import TraceLineage.Proofs.Execution.Replay

/-!
# Guards and their scopes

A guard has no reference to a context: at its end it clears whatever is current.  That this is the
context of the scope in which it began is shown by comparison with cells, where a guard keeps the
cell of its scope.  Driving comes to the same with cells and without, since what is suspended holds
only cells that were new when they were put there, and no program reaches the cells of another one.
So guards clear what they are meant to clear when they end and when they are dropped, at whatever
suspension.
-/

namespace TraceLineage

/-- What comes of driving without cells and with them is the same, seen from the current cell.  What
is left fits there, and no other cell below `n` has changed. -/
structure Cells.Agrees {H : Type → Type} {σ α : Type} (here : Option Nat) (n : Nat) (s : Cells σ)
    (x : Step H α × World σ) (y : HeldStep H α × Cells σ) : Prop where
  same : x = (y.1.step y.2.contexts, y.2.world here)
  fits : ∀ q, y.1 = .pending q → q.Fits here n y.2.used
  used : s.used ≤ y.2.used
  keeps : s.Keeps here n y.2

namespace Cells.Agrees

variable {H : Type → Type} {σ α β : Type} {here : Option Nat} {n : Nat} {s v : Cells σ}

theorem finished
    {w : World σ} (hw : s.world here = w) (x : Exit α) :
    Agrees (H := H) here n s (.finished x, w) (.finished x, s) where
  same := congrArg _ hw.symm
  fits _ := nofun
  used := Nat.le_refl _
  keeps _ _ _ := rfl

theorem outside
    {w : World σ} (hw : s.world here = w) {p : Prog H α} (hp : p.Pristine) :
    Agrees here n s (.pending p, w) (.pending (.outside p), s) where
  same := congrArg _ hw.symm
  fits := by
    rintro q ⟨⟩
    exact hp
  used := Nat.le_refl _
  keeps _ _ _ := rfl

/-- What agrees from some later cells on agrees from the earlier ones. -/
theorem after
    {x : Step H α × World σ} {y : HeldStep H α × Cells σ} (hv : Agrees here n v x y)
    (hused : s.used ≤ v.used) (hkeeps : s.Keeps here n v) :
    Agrees here n s x y where
  same := hv.same
  fits := hv.fits
  used := Nat.le_trans hused hv.used
  keeps := hkeeps.trans hv.keeps

theorem after_write
    {x : Step H α × World σ} {y : HeldStep H α × Cells σ} {w : World σ}
    (hv : Agrees here n (s.write here w) x y) :
    Agrees here n s x y :=
  hv.after (Nat.le_refl _) (s.keeps_write here n w)

end Cells.Agrees

namespace Prog

variable {H : Type → Type} {σ α β : Type} {h : Handler H σ} {here : Option Nat} {n : Nat}
  {s : Cells σ}

/-- Inside an enclosure as inside the frame in which its part is suspended. -/
theorem agrees_settle
    {enc : Enclosure} (henc : enc.Fits here n s.used) (hn : n ≤ s.used)
    (hhere : ∀ k, here = some k → k < n) {through : Bool} {body : Prog H β}
    {inside : HeldStep H β × Cells σ}
    (hbody : (enc.enter s).Agrees (enc.cell here) (enc.above n)
      (body.drive h through ((enc.enter s).world (enc.cell here))) inside)
    {next : Exit β → Prog H α} (hpristine : ∀ x, (next x).Pristine)
    (hnext : ∀ x (v : Cells σ), n ≤ v.used →
      v.Agrees here n ((next x).drive h through (v.world here))
        ((next x).driveAt h through here v)) :
    s.Agrees here n
      ((frame (enc.frame s.contexts) body next).drive h through (s.world here))
      (enc.settle h next through here s inside) := by
  obtain ⟨hsame, hfits, hused, hkeeps⟩ := hbody
  rw [enc.world_enter] at hsame
  rw [enc.used_enter] at hused
  have hinside := enc.keeps_of_enter hkeeps
  simp only [drive, hsame]
  rcases inside with ⟨x | rest, v⟩
  · simp only [HeldStep.step, ← henc.world_leave hhere hinside s.contexts]
    refine (hnext x (enc.leave s v) ?_).after ?_ (henc.keeps_leave hinside)
    · simpa using Nat.le_trans hn hused
    · simpa using hused
  · simp only [HeldStep.step, ← henc.world_restore hhere hinside s.contexts, enc.parked_frame]
    refine ⟨?_, ?_, ?_, henc.keeps_restore hinside⟩
    · simp [Enclosure.settle, HeldStep.step, Held.prog]
    · rintro q ⟨⟩
      rw [Enclosure.settle, enc.used_restore]
      exact ⟨henc.mono hused, hfits rest rfl, hpristine⟩
    · simpa [Enclosure.settle] using hused

theorem drive_opened
    (here : Option Nat) (s : Cells σ) (fr : Frame) (body : Prog H β) (next : Exit β → Prog H α)
    (through : Bool) (w : World σ) :
    (frame fr body next).drive h through w =
      (frame ((fr.opened here s).1.frame (fr.opened here s).2.contexts) body next).drive h
        through w := by
  cases fr with
  | scope ctx => simp only [Frame.opened, Enclosure.frame, Cells.alloc, if_pos]
  | guard begun =>
    simp only [drive]
    rfl
  | _ => rfl

/-- A program as it is written does the same with cells as without. -/
theorem Pristine.agrees
    (hh : h.KeepsScope) {p : Prog H α} (hp : p.Pristine) (through : Bool) (hn : n ≤ s.used)
    (hhere : ∀ k, here = some k → k < n) :
    s.Agrees here n (p.drive h through (s.world here)) (p.driveAt h through here s) := by
  induction p generalizing through here n s with
  | done x => exact .finished rfl x
  | suspend rest ih =>
    cases through with
    | false =>
      have hrest : rest.Pristine := hp
      exact .outside rfl hrest
    | true => exact ih hp true hn hhere
  | never => exact .outside rfl hp
  | op o next ih =>
    have hworld := s.world_write
      (((s.world here).isSome_perform o).trans (s.isSome_world here))
    have hn' : n ≤ (s.write here ((s.world here).perform o).2).used := hn
    have hnext := ih ((s.world here).perform o).1 (hp _) through hn' hhere
    rw [hworld] at hnext
    exact hnext.after_write
  | host r next ih =>
    have hworld := s.world_write ((hh _ r (s.world here)).trans (s.isSome_world here))
    simp only [drive, driveAt]
    rcases hr : h _ r (s.world here) with ⟨_ | a | e, w⟩
    · rw [hr] at hworld
      exact (Cells.Agrees.outside hworld hp).after_write
    · rw [hr] at hworld
      have hn' : n ≤ (s.write here w).used := hn
      have hnext := ih a (hp a) through hn' hhere
      rw [hworld] at hnext
      exact hnext.after_write
    · rw [hr] at hworld
      exact (Cells.Agrees.finished hworld (.panic e)).after_write
  | frame fr body next ihbody ihnext =>
    obtain ⟨_, hbody, hnext⟩ := hp
    obtain ⟨henc, hused, hkeeps, hworld⟩ := Enclosure.fits_opened fr hn hhere
    have hn' := Nat.le_trans hn hused
    have habove := henc.above_le hn'
    rw [← Enclosure.used_enter] at habove
    have hsettle := agrees_settle henc hn' hhere
      (ihbody hbody through habove (henc.cell_lt_above hhere)) hnext
      fun x v hv => ihnext x (hnext x) through hv hhere
    rw [drive_opened here s, driveAt_frame, ← hworld]
    exact hsettle.after hused hkeeps
  | block body next ihbody ihnext =>
    obtain ⟨hbody, hnext⟩ := hp
    have hinside := ihbody hbody true hn hhere
    simp only [drive, driveAt]
    rcases hb : body.driveAt h true here s with ⟨x | rest, v⟩
    · rw [hb] at hinside
      have hn' : n ≤ v.used := Nat.le_trans hn hinside.used
      rw [hinside.same]
      exact (ihnext _ (hnext (some x)) through hn' hhere).after hinside.used hinside.keeps
    · rw [hb] at hinside
      have hrest := hinside.fits rest rfl
      have hn' : n ≤ (rest.drop v).used := by simpa using Nat.le_trans hn hinside.used
      simp only [hinside.same, HeldStep.step, hrest.world_drop hhere]
      refine (ihnext none (hnext none) through hn' hhere).after ?_
        (hinside.keeps.trans (hrest.keeps_drop v))
      simpa using hinside.used

end Prog

/-! ## Lives with cells -/

/-- What becomes of what is held, with the states behind the polls as they are found where the
program is polled. -/
structure Account (H : Type → Type) (σ α : Type) : Type 1 where
  step : HeldStep H α
  states : List (World σ)
  cells : Cells σ

namespace Held

variable {H : Type → Type} {σ α : Type} {h : Handler H σ} {here : Option Nat} {n : Nat}
  {s : Cells σ}

/-- What becomes of what is held if it is polled in some states, one after the other, where a cell
is current.  In between, anything may happen to the context in this cell. -/
def life (h : Handler H σ) (here : Option Nat) :
    Held H α → Cells σ → List (World σ) → Account H σ α
  | q, s, [] => ⟨.pending q, [], s⟩
  | q, s, w :: ws =>
    match q.driveAt h false here (s.write here w) with
    | (.finished x, v) => ⟨.finished x, [v.world here], v⟩
    | (.pending rest, v) =>
      let l := rest.life h here v ws
      ⟨l.step, v.world here :: l.states, l.cells⟩

theorem Fits.prog_write
    {q : Held H α} {used : Nat} (hq : q.Fits here n used) (hhere : ∀ k, here = some k → k < n)
    (w : World σ) :
    q.prog (s.write here w).contexts = q.prog s.contexts := by
  refine hq.prog_congr ?_
  intro k hk
  refine if_neg ?_
  intro hcurrent
  exact Nat.not_lt.2 hk (hhere k hcurrent)

/-- What is held does the same with cells as it does as a program. -/
theorem Fits.agrees
    (hh : h.KeepsScope) {q : Held H α} (hq : q.Fits here n s.used) (through : Bool)
    (hn : n ≤ s.used) (hhere : ∀ k, here = some k → k < n) :
    s.Agrees here n ((q.prog s.contexts).drive h through (s.world here))
      (q.driveAt h through here s) := by
  induction q generalizing here n s with
  | outside p => exact Prog.Pristine.agrees hh hq through hn hhere
  | inside enc body next ih =>
    obtain ⟨henc, hbody, hnext⟩ := hq
    have habove := henc.above_le hn
    rw [← enc.used_enter] at habove hbody
    have hinside := ih hbody habove (henc.cell_lt_above hhere)
    rw [enc.contexts_enter] at hinside
    exact Prog.agrees_settle henc hn hhere hinside hnext
      fun x v hv => Prog.Pristine.agrees hh (hnext x) through hv hhere

theorem Fits.life
    (hh : h.KeepsScope) {q : Held H α} (hq : q.Fits here n s.used) (hn : n ≤ s.used)
    (hhere : ∀ k, here = some k → k < n) {ws : List (World σ)}
    (hws : ∀ w ∈ ws, w.ambient.isSome = here.isSome) :
    ((q.prog s.contexts).life h ws).step =
        (q.life h here s ws).step.step (q.life h here s ws).cells.contexts ∧
      ((q.prog s.contexts).life h ws).states = (q.life h here s ws).states ∧
      ∀ rest, (q.life h here s ws).step = .pending rest →
        rest.Fits here n (q.life h here s ws).cells.used := by
  induction ws generalizing q s with
  | nil =>
    refine ⟨rfl, rfl, ?_⟩
    rintro rest ⟨⟩
    exact hq
  | cons w ws ih =>
    have hworld := s.world_write (hws w List.mem_cons_self)
    have hagrees := Fits.agrees (s := s.write here w) hh hq false hn hhere
    rw [hworld, hq.prog_write hhere] at hagrees
    simp only [Held.life]
    rcases hd : q.driveAt h false here (s.write here w) with ⟨x | rest, v⟩
    · rw [hd] at hagrees
      rw [Prog.life_of_finished ws hagrees.same]
      exact ⟨rfl, rfl, nofun⟩
    · rw [hd] at hagrees
      have hn' : n ≤ v.used := Nat.le_trans hn hagrees.used
      obtain ⟨hstep, hstates, hfits⟩ := ih (hagrees.fits rest rfl) hn'
        fun w' hw' => hws w' (List.mem_cons_of_mem w hw')
      rw [Prog.life_of_pending ws hagrees.same]
      exact ⟨hstep, congrArg _ hstates, hfits⟩

/-- Seen from the current cell, dropping has an effect if a guard has this cell, and then it clears
it. -/
theorem world_drop
    (q : Held H α) (here : Option Nat) (s : Cells σ) :
    (q.drop s).world here =
      if here ∈ q.guards then (s.world here).clear else s.world here := by
  rw [q.drop_eq]
  cases here with
  | none => simp only [Cells.world, World.clear, Option.map_none, ite_self]
  | some k =>
    simp only [Cells.world, World.clear, Option.map_some, q.contexts_drop]
    split <;> rfl

/-- What is held may be dropped in any state where its cell is current. -/
theorem Fits.drop_in
    {q : Held H α} {used : Nat} (hq : q.Fits here n used) (hhere : ∀ k, here = some k → k < n)
    {w : World σ} (hw : w.ambient.isSome = here.isSome) :
    (q.prog s.contexts).drop w = (q.drop (s.write here w)).world here ∧
      (q.prog s.contexts).drop w = if here ∈ q.guards then w.clear else w := by
  have hworld := s.world_write hw
  have hdrop := hq.world_drop hhere (s.write here w)
  rw [hq.prog_write hhere, hworld] at hdrop
  refine ⟨hdrop, ?_⟩
  rw [hdrop, q.world_drop, hworld]

/-- A guard around the whole has no effect before the end, and there it clears its cell. -/
theorem life_inside_guard
    (q : Held H α) {ws : List (World σ)} {x : Exit α}
    (hq : (q.life h here s ws).step = .finished x) :
    ∃ front v, (q.life h here s ws).states = front ++ [v] ∧
      (inside (.guard here) q .done).life h here s ws =
        ⟨.finished x, front ++ [v.clear], (q.life h here s ws).cells.clear here⟩ := by
  induction ws generalizing q s with
  | nil => exact nomatch hq
  | cons w ws ih =>
    have hguard : (inside (.guard here) q .done).driveAt h false here (s.write here w) =
        Enclosure.settle h (.guard here) .done false here (s.write here w)
          (q.driveAt h false here (s.write here w)) := rfl
    simp only [life] at hq ⊢
    rw [hguard]
    rcases hd : q.driveAt h false here (s.write here w) with ⟨y | rest, v⟩
    · rw [hd] at hq
      obtain rfl : y = x := HeldStep.finished.inj hq
      refine ⟨[], v.world here, rfl, ?_⟩
      simp only [Enclosure.settle, Enclosure.leave, Prog.driveAt, v.world_clear, List.nil_append]
    · rw [hd] at hq
      obtain ⟨front, u, hstates, hlife⟩ := ih rest hq
      refine ⟨v.world here :: front, u, congrArg _ hstates, ?_⟩
      simp only [Enclosure.settle, Enclosure.restore, hlife, List.cons_append]

theorem life_guarded
    (p : Prog H α) {ws : List (World σ)} {x : Exit α}
    (hp : ((outside p).life h here s ws).step = .finished x) :
    ∃ front v, ((outside p).life h here s ws).states = front ++ [v] ∧
      (outside (Ambient.guarded p)).life h here s ws =
        ⟨.finished x, front ++ [v.clear], ((outside p).life h here s ws).cells.clear here⟩ := by
  obtain ⟨front, v, hstates, hlife⟩ := (outside p).life_inside_guard hp
  refine ⟨front, v, hstates, hlife ▸ ?_⟩
  cases ws with
  | nil => exact nomatch hp
  | cons w ws =>
    have hdrive : (outside (Ambient.guarded p)).driveAt h false here (s.write here w) =
        (inside (.guard here) (outside p) .done).driveAt h false here (s.write here w) :=
      Prog.driveAt_frame ..
    simp only [life, hdrive]

end Held

theorem World.clear_of_none
    {σ : Type} (w : World σ) (hw : w.ambient = none) :
    w.clear = w := by
  rw [clear, hw, Option.map_none, ← hw]

namespace Prog

variable {H : Type → Type} {σ α : Type} {h : Handler H σ}

/-- Guards clear the contexts of their own scopes, on every way to an end.  A program as it is
written, with scopes, guards and parts run on the spot nested in any way, does under every sequence
of polls what it does with cells, where a guard that ends by a return or a panic, or is dropped with
a part on the spot, clears the cell that was current when it began.  If it is dropped at last, in
whatever state, the cells of the guards that have begun are cleared and no others; so the context
around it is cleared if one of them began there, not inside a scope, and is left as it is otherwise,
and outside of every scope nothing changes.  A guard around a program that ends, by a return or a
panic, has no effect before the end, and there it clears the current cell and no others. -/
theorem guards_clear_own_scope
    (hh : h.KeepsScope) {p : Prog H α} (hp : p.Pristine) {here : Option Nat} {s : Cells σ}
    (hhere : ∀ k, here = some k → k < s.used) {ws : List (World σ)}
    (hws : ∀ w ∈ ws, w.ambient.isSome = here.isSome) :
    let l := (Held.outside p).life h here s ws
    ((p.life h ws).step = l.step.step l.cells.contexts ∧ (p.life h ws).states = l.states) ∧
    (∀ q, l.step = .pending q → ∀ w : World σ, w.ambient.isSome = here.isSome →
      let rest := q.prog l.cells.contexts
      let before := l.cells.write here w
      let after := q.drop before
      (∀ k, after.contexts k = if some k ∈ q.guards then .empty else before.contexts k) ∧
      rest.drop w = after.world here ∧
      rest.drop w = (if here ∈ q.guards then w.clear else w) ∧
      (here = none → rest.drop w = w)) ∧
    ∀ x, l.step = .finished x →
      let guarded := (Held.outside (Ambient.guarded p)).life h here s ws
      guarded.step = .finished x ∧ guarded.cells = l.cells.clear here ∧
      ((Ambient.guarded p).life h ws).step = .finished x ∧
      ∃ front v, (p.life h ws).states = front ++ [v] ∧
        ((Ambient.guarded p).life h ws).states = front ++ [v.clear] := by
  have hplain : (Held.outside p).Fits here s.used s.used := hp
  have hguarded : (Held.outside (Ambient.guarded p)).Fits here s.used s.used :=
    ⟨nofun, hp, fun _ => trivial⟩
  obtain ⟨hstep, hstates, hfits⟩ := hplain.life hh (Nat.le_refl _) hhere hws
  refine ⟨⟨hstep, hstates⟩, ?_, ?_⟩
  · intro q hq w hw rest before after
    obtain ⟨hdrop, hclosed⟩ := (hfits q hq).drop_in hhere hw
    refine ⟨q.contexts_drop before, hdrop, hclosed, ?_⟩
    rintro rfl
    have hnone : w.ambient = none :=
      Option.isNone_iff_eq_none.1 (Option.isSome_eq_false_iff.1 hw)
    rw [hclosed, w.clear_of_none hnone, ite_self]
  · intro x hx
    obtain ⟨hstep', hstates', _⟩ := hguarded.life hh (Nat.le_refl _) hhere hws
    obtain ⟨front, v, hfront, hlife⟩ := Held.life_guarded p hx
    rw [hlife] at hstep' hstates' ⊢
    exact ⟨rfl, rfl, hstep', front, v, hstates.trans hfront, hstates'⟩

/-- A program that suspends in a scope with a guard, without another guard around the scope and with
one.  Dropping the first clears the context in the scope and leaves the one around it; dropping the
second clears both. -/
theorem guards_clear_own_scope_of_nested :
    let h := LocalHost.nobody.handler
    let chain : Context := .withId ⟨"chain"⟩
    let inner : Prog (fun _ => Empty) Unit :=
      Ambient.inContext chain (Ambient.guarded (.suspend (.done (.value ()))))
    let w : World Unit := ⟨some chain, .fresh ⟨fun n => ⟨n % 63, Nat.mod_lt n (by decide)⟩, 0⟩, ()⟩
    let s : Cells Unit := ⟨fun _ => chain, 1, w.facilities, ()⟩
    let single := (Held.outside inner).life h (some 0) s [w]
    let double := (Held.outside (Ambient.guarded inner)).life h (some 0) s [w]
    h.KeepsScope ∧ inner.Pristine ∧ (Ambient.guarded inner).Pristine ∧
    (∃ q, single.step = .pending q ∧ q.guards = [some 1] ∧
      (q.prog single.cells.contexts).drop w = w ∧
      (q.drop (single.cells.write (some 0) w)).contexts 0 = chain ∧
      (q.drop (single.cells.write (some 0) w)).contexts 1 = .empty) ∧
    ∃ q, double.step = .pending q ∧ q.guards = [some 0, some 1] ∧
      (q.prog double.cells.contexts).drop w = w.clear ∧
      (q.drop (double.cells.write (some 0) w)).contexts 0 = .empty ∧
      (q.drop (double.cells.write (some 0) w)).contexts 1 = .empty := by
  intro h chain inner w s single double
  have hh : h.KeepsScope := LocalHost.nobody.sparesContext.keepsScope
  have hinner : inner.Pristine :=
    ⟨nofun, ⟨nofun, trivial, fun _ => trivial⟩, fun _ => trivial⟩
  have hguarded : (Ambient.guarded inner).Pristine := ⟨nofun, hinner, fun _ => trivial⟩
  have hhere : ∀ k, some 0 = some k → k < s.used := by
    rintro k ⟨⟩
    exact Nat.zero_lt_one
  have hws : ∀ v ∈ [w], v.ambient.isSome = (some 0).isSome := by
    intro v hv
    rw [List.mem_singleton.1 hv]
    rfl
  have hsingle := (guards_clear_own_scope hh hinner hhere hws).2.1
  have hdouble := (guards_clear_own_scope hh hguarded hhere hws).2.1
  refine ⟨hh, hinner, hguarded, ⟨_, rfl, rfl, ?_⟩, ⟨_, rfl, rfl, ?_⟩⟩
  · obtain ⟨hcells, _, hdrop, _⟩ := hsingle _ rfl w rfl
    exact ⟨hdrop, hcells 0, hcells 1⟩
  · obtain ⟨hcells, _, hdrop, _⟩ := hdouble _ rfl w rfl
    exact ⟨hdrop, hcells 0, hcells 1⟩

end Prog

end TraceLineage
