import TraceLineage.Proofs.Execution.Containment
import TraceLineage.Proofs.Execution.Inside

/-!
# The line of contexts in one scope

The operations that a program performs in the scope where it is driven form a line: each of them
finds the context that the one before has left, whatever happens in between in other scopes.  Since
an id in a context is replaced by extensions of it only, all ids on such a line extend the first one
until the context is cleared.
-/

namespace TraceLineage

/-- Whether an operation clears the context. -/
def Op.isClear : {γ : Type} → Op γ → Bool
  | _, .clear => true
  | _, _ => false

namespace Happening

def atDepth (d : Nat) (xs : List Happening) : List Happening :=
  xs.filter fun x => x.depth = d

theorem atDepth_append
    (d : Nat) (xs ys : List Happening) :
    atDepth d (xs ++ ys) = atDepth d xs ++ atDepth d ys :=
  List.filter_append ..

theorem atDepth_singleton
    {σ γ : Type} (d : Nat) (w : World σ) (o : Op γ) :
    atDepth d [w.happening d o] = [w.happening d o] :=
  List.filter_cons_of_pos (decide_eq_true rfl)

theorem atDepth_eq_nil
    {d : Nat} {xs : List Happening} (hxs : ∀ x ∈ xs, d < x.depth) :
    atDepth d xs = [] := by
  refine List.filter_eq_nil_iff.2 ?_
  intro x hx
  have hd := hxs x hx
  simp only [decide_eq_true_eq]
  omega

/-- Operations that are performed one after the other on one context, with anything else in
between. -/
inductive Linked (σ : Type) : Option Context → List Happening → Option Context → Prop where
  | nil (a : Option Context) : Linked σ a [] a
  | cons {γ : Type} (w : World σ) (d : Nat) (o : Op γ) {xs : List Happening} {b : Option Context} :
    Linked σ (w.perform o).2.ambient xs b → Linked σ w.ambient (w.happening d o :: xs) b

theorem Linked.append
    {σ : Type} {a b c : Option Context} {xs ys : List Happening} (hab : Linked σ a xs b)
    (hbc : Linked σ b ys c) :
    Linked σ a (xs ++ ys) c := by
  induction hab with
  | nil a => exact hbc
  | cons w d o _ ih => exact .cons w d o (ih hbc)

/-- The first operation finds the context in front of the line. -/
theorem Linked.before_head
    {σ : Type} {a b : Option Context} {xs : List Happening} (hxs : Linked σ a xs b) :
    ∀ x, xs.head? = some x → x.before = a := by
  intro x hx
  cases hxs with
  | nil a => exact nomatch hx
  | cons w d o _ =>
    rw [List.head?_cons, Option.some.injEq] at hx
    rw [← hx]
    rfl

end Happening

open Happening

/-! ## Programs -/

namespace Frame

variable {σ : Type}

theorem depth_of_hidesContext
    {fr : Frame} (hfr : fr.hidesContext = true) (d : Nat) :
    d < d + fr.depth := by
  rw [depth, if_pos hfr]
  exact Nat.lt_succ_self d

theorem depth_of_not_hidesContext
    {fr : Frame} (hfr : fr.hidesContext = false) :
    fr.depth = 0 := by
  rw [depth, hfr]
  rfl

theorem depth_of_mem_leaveTrace
    {fr : Frame} {d : Nat} {v : World σ} {x : Happening} (hx : x ∈ fr.leaveTrace d v) :
    x.depth = d := by
  rcases fr.eq_guard_or with ⟨begun, rfl⟩ | hfr
  · rw [List.mem_singleton.1 hx]
    rfl
  · rw [leaveTrace_of_not_guard hfr] at hx
    exact nomatch hx

theorem depth_of_mem_abandonTrace
    {fr : Frame} {d : Nat} {v : World σ} {x : Happening} (hx : x ∈ fr.abandonTrace d v) :
    x.depth = d := by
  rcases fr.eq_guard_or with ⟨begun, rfl⟩ | hfr
  · cases begun with
    | false => exact nomatch hx
    | true =>
      rw [List.mem_singleton.1 hx]
      rfl
  · rw [abandonTrace_of_not_guard hfr] at hx
    exact nomatch hx

end Frame

namespace Prog

variable {H : Type → Type} {σ α : Type}

theorem le_depth_of_mem_dropTrace
    (p : Prog H α) {d : Nat} {w : World σ} {x : Happening} (hx : x ∈ p.dropTrace d w) :
    d ≤ x.depth := by
  induction p generalizing d w with
  | frame fr body next ih _ =>
    rcases List.mem_append.1 hx with hx | hx
    · exact Nat.le_trans (Nat.le_add_right d fr.depth) (ih hx)
    · exact Nat.le_of_eq (Frame.depth_of_mem_abandonTrace hx).symm
  | _ => exact absurd hx List.not_mem_nil

/-- Nothing that a program performs is less deep than the program. -/
theorem le_depth_of_mem_trace
    (h : Handler H σ) (p : Prog H α) {through : Bool} {d : Nat} {w : World σ} {x : Happening}
    (hx : x ∈ p.trace h through d w) :
    d ≤ x.depth := by
  induction p generalizing through d w with
  | done _ => exact absurd hx List.not_mem_nil
  | suspend rest ih =>
    cases through with
    | false => exact absurd hx List.not_mem_nil
    | true => exact ih hx
  | never => exact absurd hx List.not_mem_nil
  | op o next ih =>
    rcases List.mem_cons.1 hx with hx | hx
    · rw [hx]
      exact Nat.le_refl d
    · exact ih _ hx
  | host r next ih =>
    simp only [trace] at hx
    rcases hr : h _ r w with ⟨_ | a | e, v⟩
    · rw [hr] at hx
      exact absurd hx List.not_mem_nil
    · rw [hr] at hx
      exact ih a hx
    · rw [hr] at hx
      exact absurd hx List.not_mem_nil
  | frame fr body next ihbody ihnext =>
    rw [trace] at hx
    rcases List.mem_append.1 hx with hx | hx
    · exact Nat.le_trans (Nat.le_add_right d fr.depth) (ihbody hx)
    · rcases hb : body.drive h through (fr.enter w) with ⟨x | rest, v⟩
      · rw [hb] at hx
        rcases List.mem_append.1 hx with hx | hx
        · exact Nat.le_of_eq (Frame.depth_of_mem_leaveTrace hx).symm
        · exact ihnext _ hx
      · rw [hb] at hx
        exact absurd hx List.not_mem_nil
  | block body next ihbody ihnext =>
    rw [trace] at hx
    rcases List.mem_append.1 hx with hx | hx
    · exact ihbody hx
    · rcases hb : body.drive h true w with ⟨x | rest, v⟩
      · rw [hb] at hx
        exact ihnext _ hx
      · rw [hb] at hx
        rcases List.mem_append.1 hx with hx | hx
        · exact le_depth_of_mem_dropTrace rest hx
        · exact ihnext _ hx

/-- Inside a frame that hides the context nothing happens at the depth outside. -/
theorem atDepth_trace_inside
    (h : Handler H σ) {fr : Frame} (hfr : fr.hidesContext = true) (p : Prog H α) (through : Bool)
    (d : Nat) (w : World σ) :
    atDepth d (p.trace h through (d + fr.depth) w) = [] := by
  refine atDepth_eq_nil ?_
  intro x hx
  exact Nat.lt_of_lt_of_le (Frame.depth_of_hidesContext hfr d) (le_depth_of_mem_trace h p hx)

theorem atDepth_dropTrace_inside
    {fr : Frame} (hfr : fr.hidesContext = true) (p : Prog H α) (d : Nat) (w : World σ) :
    atDepth d (p.dropTrace (d + fr.depth) w) = [] := by
  refine atDepth_eq_nil ?_
  intro x hx
  exact Nat.lt_of_lt_of_le (Frame.depth_of_hidesContext hfr d) (le_depth_of_mem_dropTrace p hx)

end Prog

namespace Frame

variable {σ : Type} (fr : Frame) {xs : List Happening} {w v : World σ}

/-- A line goes on behind a frame where it went on inside, or where it was in front of it. -/
theorem linked_restore
    (hv : fr.hidesContext = false → Linked σ w.ambient xs v.ambient)
    (hxs : fr.hidesContext = true → xs = []) :
    Linked σ w.ambient xs (fr.restore w v).ambient := by
  rw [fr.ambient_restore]
  by_cases hfr : fr.hidesContext = true
  · rw [if_pos hfr, hxs hfr]
    exact .nil _
  · rw [if_neg hfr]
    exact hv (Bool.eq_false_iff.2 hfr)

theorem linked_leave
    (d : Nat) (hv : fr.hidesContext = false → Linked σ w.ambient xs v.ambient)
    (hxs : fr.hidesContext = true → xs = []) :
    Linked σ w.ambient (xs ++ atDepth d (fr.leaveTrace d v)) (fr.leave w v).ambient := by
  rcases fr.eq_guard_or with ⟨begun, rfl⟩ | hfr
  · rw [leaveTrace, atDepth_singleton]
    exact (hv rfl).append (.cons v d .clear (.nil _))
  · rw [leave_of_not_guard hfr, leaveTrace_of_not_guard hfr]
    exact (fr.linked_restore hv hxs).append (.nil _)

theorem linked_abandon
    (d : Nat) (hv : fr.hidesContext = false → Linked σ w.ambient xs v.ambient)
    (hxs : fr.hidesContext = true → xs = []) :
    Linked σ w.ambient (xs ++ atDepth d (fr.abandonTrace d v)) (fr.abandon w v).ambient := by
  rcases fr.eq_guard_or with ⟨begun, rfl⟩ | hfr
  · cases begun with
    | false => exact (hv rfl).append (.nil _)
    | true =>
      rw [abandonTrace, atDepth_singleton]
      exact (hv rfl).append (.cons v d .clear (.nil _))
  · rw [abandon_of_not_guard hfr, abandonTrace_of_not_guard hfr]
    exact (fr.linked_restore hv hxs).append (.nil _)

end Frame

namespace Prog

variable {H : Type → Type} {σ α : Type}

theorem linked_drop
    (p : Prog H α) (d : Nat) (w : World σ) :
    Linked σ w.ambient (atDepth d (p.dropTrace d w)) (p.drop w).ambient := by
  induction p generalizing d w with
  | frame fr body next ih _ =>
    rw [dropTrace, atDepth_append]
    refine fr.linked_abandon d ?_ ?_
    · intro hfr
      have hinside := ih d (fr.enter w)
      rw [Frame.ambient_enter hfr] at hinside
      rw [Frame.depth_of_not_hidesContext hfr]
      exact hinside
    · intro hfr
      exact atDepth_dropTrace_inside hfr body d _
  | _ => exact .nil _

/-- What a program performs in the scope where it is driven is on one line. -/
theorem linked_drive
    {h : Handler H σ} (hh : h.SparesContext) (p : Prog H α) (through : Bool) (d : Nat)
    (w : World σ) :
    Linked σ w.ambient (atDepth d (p.trace h through d w)) (p.drive h through w).2.ambient := by
  induction p generalizing through d w with
  | done x => exact .nil _
  | suspend rest ih =>
    cases through with
    | false => exact .nil _
    | true => exact ih true d w
  | never => exact .nil _
  | op o next ih =>
    rw [trace, ← List.singleton_append, atDepth_append, atDepth_singleton]
    exact .cons w d o (ih _ through d _)
  | host r next ih =>
    have hspares := hh _ r w
    simp only [trace, drive]
    rcases hr : h _ r w with ⟨_ | a | e, v⟩
    · rw [hr] at hspares
      exact hspares ▸ .nil _
    · rw [hr] at hspares
      exact hspares ▸ ih a through d v
    · rw [hr] at hspares
      exact hspares ▸ .nil _
  | frame fr body next ihbody ihnext =>
    have hinside := ihbody through (d + fr.depth) (fr.enter w)
    have hline : fr.hidesContext = false → Linked σ w.ambient
        (atDepth d (body.trace h through (d + fr.depth) (fr.enter w)))
        (body.drive h through (fr.enter w)).2.ambient := by
      intro hfr
      rw [Frame.ambient_enter hfr, Frame.depth_of_not_hidesContext hfr] at hinside
      rw [Frame.depth_of_not_hidesContext hfr]
      exact hinside
    -- behind a frame that hides the context the line goes on as if the frame were not there
    have hnone := fun (hfr : fr.hidesContext = true) =>
      atDepth_trace_inside h hfr body through d (fr.enter w)
    simp only [trace, drive, atDepth_append]
    rcases hb : body.drive h through (fr.enter w) with ⟨x | rest, v⟩
    · rw [hb] at hline
      rw [atDepth_append, ← List.append_assoc]
      exact (fr.linked_leave d hline hnone).append (ihnext x through d _)
    · rw [hb] at hline
      exact (fr.linked_restore hline hnone).append (.nil _)
  | block body next ihbody ihnext =>
    have hinside := ihbody true d w
    simp only [trace, drive, atDepth_append]
    rcases hb : body.drive h true w with ⟨x | rest, v⟩
    · rw [hb] at hinside
      exact hinside.append (ihnext _ through d v)
    · rw [hb] at hinside
      rw [atDepth_append]
      exact hinside.append ((rest.linked_drop d v).append (ihnext _ through d _))

end Prog

/-! ## Scopes -/

/-- What is performed in a scope is on one line over all polls, whatever is in scope around it. -/
theorem Ambient.linked_life_inContext
    {H : Type → Type} {σ α : Type} {h : Handler H σ} (hh : h.SparesContext) (path : List Span)
    (ctx : Context) (body : Prog H α) (ws : List (World σ)) :
    ∃ b, Linked σ (some ctx)
      (atDepth 1 ((underSpans path (inContext ctx body)).life h ws).trace) b := by
  induction ws generalizing ctx body with
  | nil => exact ⟨some ctx, .nil _⟩
  | cons w ws ih =>
    have hline := body.linked_drive hh false 1 (w.within path ctx)
    have hopen := hh.keepsScope.across.drive body false (w.within path ctx)
    have hstep := step_underSpans_inContext (h := h) path ctx body false w
    have htrace : (underSpans path (inContext ctx body)).trace h false 0 w =
        body.trace h false 1 (w.within path ctx) := by
      rw [trace_underSpans, trace_inContext]
      rfl
    rw [← htrace] at hline
    rcases hp : (underSpans path (inContext ctx body)).poll h w with ⟨s, u⟩
    rw [Prog.poll] at hp
    rw [hp] at hstep
    rcases hb : body.drive h false (w.within path ctx) with ⟨x | rest, v⟩
    · rw [hb] at hstep hline
      obtain rfl : s = .finished x := hstep
      rw [Prog.life_of_finished ws hp]
      exact ⟨v.ambient, hline⟩
    · rw [hb] at hstep hline hopen
      obtain rfl : s = .pending (underSpans path (inContext (v.ambient.getD ctx) rest)) := hstep
      obtain ⟨kept, hkept⟩ : ∃ kept, v.ambient = some kept := Option.isSome_iff_exists.1 hopen
      obtain ⟨b, hrest⟩ := ih (v.ambient.getD ctx) rest
      rw [Prog.life_of_pending ws hp]
      refine ⟨b, ?_⟩
      rw [atDepth_append]
      refine hline.append ?_
      simp only [hkept, Option.getD_some] at hrest ⊢
      exact hrest

/-! ## Ids -/

/-- The context shows an id that extends the given one. -/
def Context.Extends (id : TraceId) (a : Option Context) : Prop :=
  ∃ next, a.bind Context.get? = some next ∧ next.isExtensionOf id = true

/-- A context that has accepted another id shows it, and it extends the one before. -/
theorem Context.get?_of_set
    {ctx ctx' : Context} {old id : TraceId} (hold : ctx.get? = some old)
    (hset : ctx.set id = .ok ctx') :
    ctx'.get? = some id ∧ id.isExtensionOf old = true := by
  simp only [Context.set, hold] at hset
  split at hset
  · rename_i hid
    cases hset
    have hblank := ((ctx.get?_eq_some_iff old).1 hold).2
    have hblank := TraceId.isBlank_eq_false_of_isExtensionOf hid hblank
    exact ⟨(get?_eq_some_iff _ _).2 ⟨rfl, hblank⟩, hid⟩
  · exact nomatch hset

namespace Context.Extends

variable {id : TraceId}

theorem of_set
    {ctx ctx' : Context} {next : TraceId} (hctx : Extends id (some ctx))
    (hset : ctx.set next = .ok ctx') :
    Extends id (some ctx') := by
  obtain ⟨old, hold, hext⟩ := hctx
  obtain ⟨hget, hnext⟩ := Context.get?_of_set hold hset
  exact ⟨next, hget, TraceId.isExtensionOf_trans hext hnext⟩

theorem resolve
    {ctx : Context} (hctx : Extends id (some ctx)) (c : Config) (b : Boundary) (f : Facilities) :
    Extends id (some (c.resolve b ctx f).2.1) := by
  simp only [Config.resolve]
  rcases c.generateAt b ctx f with ⟨e | next, g⟩
  · exact hctx
  · dsimp only
    cases hset : ctx.set next with
    | error e => exact hctx
    | ok ctx' => exact hctx.of_set hset

theorem perform
    {σ γ : Type} {w : World σ} (hw : Extends id w.ambient) {o : Op γ} (ho : o.isClear = false) :
    Extends id (w.perform o).2.ambient := by
  cases o with
  | clear => exact nomatch ho
  | set next =>
    simp only [World.perform]
    cases hctx : w.ambient with
    | none => exact hw
    | some ctx =>
      rw [hctx] at hw
      dsimp only
      cases hset : ctx.set next with
      | ok ctx' => exact hw.of_set hset
      | error e =>
        rw [← hctx] at hw
        exact hw
  | put key value =>
    simp only [World.perform]
    cases hctx : w.ambient with
    | none => exact hw
    | some ctx =>
      rw [hctx] at hw
      exact hw
  | resolve c b =>
    simp only [World.perform]
    cases hctx : w.ambient with
    | none => exact hw
    | some ctx =>
      rw [hctx] at hw
      exact hw.resolve c b w.facilities
  | _ => exact hw

end Context.Extends

/-- Every id on a line extends the first one, up to the first clearing. -/
theorem Happening.Linked.extends
    {σ : Type} {a b : Option Context} {xs : List Happening} (hxs : Linked σ a xs b) {id : TraceId}
    (ha : Context.Extends id a) :
    ∀ x ∈ xs.takeWhile fun x => !x.op.isClear,
      Context.Extends id x.before ∧ Context.Extends id x.after := by
  induction hxs with
  | nil a =>
    intro x hx
    rw [List.takeWhile_nil] at hx
    exact absurd hx List.not_mem_nil
  | cons w d o _ ih =>
    intro x hx
    rw [List.takeWhile_cons] at hx
    split at hx
    · rename_i ho
      have hclear : o.isClear = false := Bool.not_eq_eq_eq_not.1 ho
      have hafter := ha.perform hclear
      rcases List.mem_cons.1 hx with rfl | hx
      · exact ⟨ha, hafter⟩
      · exact ih hafter x hx
    · exact nomatch hx

end TraceLineage
