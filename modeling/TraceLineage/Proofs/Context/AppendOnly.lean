import Mathlib.Data.List.TakeWhile
import TraceLineage.Proofs.Execution.Lineage
import TraceLineage.Proofs.Execution.Replay

/-!
# Ids only grow

A context is changed step by step: an id is set, a field is put, an id is resolved at some boundary,
or the context is cleared.  A step may be refused, and then nothing changes.  Between two clearings
an id that the context shows is never lost and never replaced by anything but an extension, so that
the ids shown form a chain.  The same holds of the context of a scope, whatever program runs in it
and however it is polled.
-/

namespace TraceLineage

/-- A change that is asked of a context.  An id is resolved with the facilities as they are at that
time. -/
inductive Edit where
  | set (id : TraceId)
  | put (key value : String)
  | clear
  | resolve (c : Config) (b : Boundary) (f : Facilities)

def Edit.isClear : Edit → Bool
  | clear => true
  | _ => false

namespace Context

/-- The context after a change, the same context if the change is refused. -/
def edit (ctx : Context) : Edit → Context
  | .set id =>
    match ctx.set id with
    | .ok changed => changed
    | .error _ => ctx
  | .put key value => ctx.put key value
  | .clear => .empty
  | .resolve c b f => (c.resolve b ctx f).2.1

def editAll (ctx : Context) (es : List Edit) : Context :=
  es.foldl edit ctx

theorem editAll_append
    (ctx : Context) (es fs : List Edit) :
    ctx.editAll (es ++ fs) = (ctx.editAll es).editAll fs :=
  List.foldl_append

/-- The ids that a context shows in the course of several changes, the first one included. -/
def shown (ctx : Context) (es : List Edit) : List TraceId :=
  (es.scanl edit ctx).filterMap get?

namespace Extends

variable {id : TraceId} {ctx : Context}

/-- A change other than clearing takes no id back, whether it is refused or not. -/
theorem edit
    (hctx : Extends id (some ctx)) {e : Edit} (he : e.isClear = false) :
    Extends id (some (ctx.edit e)) := by
  cases e with
  | set next =>
    simp only [Context.edit]
    cases hset : ctx.set next with
    | ok changed => exact hctx.of_set hset
    | error fault => exact hctx
  | put key value => exact hctx
  | clear => exact nomatch he
  | resolve c b f => exact hctx.resolve c b f

/-- Nor do several changes without a clearing among them, at any point in their course. -/
theorem scanl
    (hctx : Extends id (some ctx)) {es : List Edit} (hes : ∀ e ∈ es, e.isClear = false) :
    ∀ next ∈ es.scanl Context.edit ctx, Extends id (some next) := by
  induction es generalizing ctx with
  | nil =>
    intro next hnext
    rw [List.scanl_nil, List.mem_singleton] at hnext
    rw [hnext]
    exact hctx
  | cons e es ih =>
    obtain ⟨he, hes⟩ := List.forall_mem_cons.1 hes
    intro next hnext
    rw [List.scanl_cons] at hnext
    rcases List.mem_cons.1 hnext with rfl | hnext
    · exact hctx
    · exact ih (hctx.edit he) hes next hnext

theorem editAll
    (hctx : Extends id (some ctx)) {es : List Edit} (hes : ∀ e ∈ es, e.isClear = false) :
    Extends id (some (ctx.editAll es)) := by
  induction es generalizing ctx with
  | nil => exact hctx
  | cons e es ih =>
    obtain ⟨he, hes⟩ := List.forall_mem_cons.1 hes
    exact ih (hctx.edit he) hes

end Extends

theorem extends_of_get?
    {a : Option Context} {id : TraceId} (ha : a.bind get? = some id) :
    Extends id a :=
  ⟨id, ha, id.isExtensionOf_refl⟩

theorem pairwise_shown
    (ctx : Context) {es : List Edit} (hes : ∀ e ∈ es, e.isClear = false) :
    (ctx.shown es).Pairwise fun id next => next.isExtensionOf id = true := by
  induction es generalizing ctx with
  | nil =>
    rw [shown, List.scanl_nil, List.filterMap_cons, List.filterMap_nil]
    cases ctx.get? with
    | none => exact .nil
    | some id => exact List.pairwise_singleton _ id
  | cons e es ih =>
    obtain ⟨he, htail⟩ := List.forall_mem_cons.1 hes
    have hrest := ih (ctx.edit e) htail
    rw [shown] at hrest
    rw [shown, List.scanl_cons, List.filterMap_cons]
    cases hget : ctx.get? with
    | none => exact hrest
    | some id =>
      refine List.pairwise_cons.2 ⟨?_, hrest⟩
      intro next hnext
      obtain ⟨later, hlater, hshows⟩ := List.mem_filterMap.1 hnext
      have hctx : Extends id (some ctx) := extends_of_get? hget
      obtain ⟨grown, hgrown, hext⟩ := (hctx.edit he).scanl htail later hlater
      obtain rfl : grown = next := Option.some.inj (hgrown.symm.trans hshows)
      exact hext

end Context

namespace Happening

theorem Linked.of_append
    {σ : Type} {a c : Option Context} {xs ys : List Happening} (h : Linked σ a (xs ++ ys) c) :
    ∃ b, Linked σ a xs b ∧ Linked σ b ys c := by
  induction xs generalizing a with
  | nil => exact ⟨a, .nil a, h⟩
  | cons x xs ih =>
    cases h with
    | cons w d o hrest =>
      obtain ⟨b, hxs, hys⟩ := ih hrest
      exact ⟨b, .cons w d o hxs, hys⟩

/-- On a stretch of a line without a clearing the last context extends what the first one shows. -/
theorem Linked.extends_last
    {σ : Type} {a b : Option Context} {xs : List Happening} (hxs : Linked σ a xs b)
    (hclear : ∀ x ∈ xs, x.op.isClear = false) {first last : Happening}
    (hfirst : xs.head? = some first) (hlast : xs.getLast? = some last) {id : TraceId}
    (hid : first.before.bind Context.get? = some id) :
    Context.Extends id last.after := by
  rw [hxs.before_head first hfirst] at hid
  have hall := hxs.extends (Context.extends_of_get? hid)
  have hwhole : (xs.takeWhile fun x => !x.op.isClear) = xs := by
    refine List.takeWhile_eq_self_iff.2 ?_
    intro x hx
    rw [hclear x hx]
    rfl
  rw [hwhole] at hall
  exact (hall last (List.mem_of_getLast? hlast)).2

end Happening

/-- Ids only grow.  Whatever is done to a context, between any two points without a clearing in
between an id that it shows at the first is extended by the one that it shows at the second; all ids
shown there form a chain.  And in a scope, whatever runs in it, at whatever polls and in whatever
contexts around it, an id that is in scope in front of some operations is extended by the one behind
them, unless one of them clears the context. -/
theorem Context.append_only :
    (∀ (ctx : Context) (before between : List Edit),
      (∀ e ∈ between, e.isClear = false) →
      (∀ id, (ctx.editAll before).get? = some id →
        ∃ next, (ctx.editAll (before ++ between)).get? = some next ∧
          next.isExtensionOf id = true) ∧
      ((ctx.editAll before).shown between).Pairwise fun id next =>
        next.isExtensionOf id = true) ∧
    ∀ {H : Type → Type} {σ α : Type} {h : Handler H σ}, h.SparesContext →
      ∀ (path : List Span) (ctx : Context) (body : Prog H α) (ws : List (World σ))
        (before between after : List Happening),
        Happening.atDepth 1
            ((Ambient.underSpans path (Ambient.inContext ctx body)).life h ws).trace =
          before ++ between ++ after →
        (∀ x ∈ between, x.op.isClear = false) →
        ∀ first last, between.head? = some first → between.getLast? = some last →
          ∀ id, first.before.bind Context.get? = some id → Context.Extends id last.after := by
  constructor
  · intro ctx before between hclear
    refine ⟨?_, pairwise_shown (ctx.editAll before) hclear⟩
    intro id hid
    have hfirst : Extends id (some (ctx.editAll before)) := extends_of_get? hid
    rw [editAll_append]
    exact hfirst.editAll hclear
  · intro H σ α h hh path ctx body ws before between after hown hclear
      first last hfirst hlast id hid
    obtain ⟨b, hline⟩ := Ambient.linked_life_inContext hh path ctx body ws
    rw [hown, List.append_assoc] at hline
    obtain ⟨c, _, hline⟩ := hline.of_append
    obtain ⟨d, hline, _⟩ := hline.of_append
    exact hline.extends_last hclear hfirst hlast hid

/-- A blank id gives way to `A`, which survives a refused replacement; and so it does in a scope
that is polled twice. -/
theorem Context.append_only_of_refusals :
    let f : Facilities := .fresh ⟨fun n => ⟨n % 63, Nat.mod_lt n (by decide)⟩, 0⟩
    let ctx : Context := .withId ⟨" "⟩
    let between : List Edit := [.set ⟨"B"⟩, .put "k" "v", .resolve .standard .handoff f]
    let body : Prog (fun _ => Empty) (Except Fault Unit) :=
      .op (.set ⟨"A_b"⟩) fun _ => .suspend (Ambient.set ⟨"B"⟩)
    let scope := Ambient.underSpans [] (Ambient.inContext (.withId ⟨"A"⟩) body)
    let own := Happening.atDepth 1
      (scope.life LocalHost.nobody.handler
        [⟨none, f, ()⟩, ⟨some (.withId ⟨"other"⟩), f, ()⟩]).trace
    (∀ e ∈ between, e.isClear = false) ∧ (ctx.editAll [.set ⟨"A"⟩]).get? = some ⟨"A"⟩ ∧
      (∃ next, (ctx.editAll ([.set ⟨"A"⟩] ++ between)).get? = some next ∧
        next.isExtensionOf ⟨"A"⟩ = true) ∧
      (∀ x ∈ own, x.op.isClear = false) ∧
      ∃ first last, own.head? = some first ∧ own.getLast? = some last ∧
        first.before.bind Context.get? = some ⟨"A"⟩ ∧ Context.Extends ⟨"A"⟩ last.after := by
  intro f ctx between body scope own
  have hbetween : ∀ e ∈ between, e.isClear = false := by simp [between, Edit.isClear]
  have hshown : (ctx.editAll [.set ⟨"A"⟩]).get? = some ⟨"A"⟩ := by decide +kernel
  have hown : ∀ x ∈ own, x.op.isClear = false := by
    have hall : (own.all fun x => !x.op.isClear) = true := by rfl
    intro x hx
    exact Bool.not_eq_eq_eq_not.1 (List.all_eq_true.1 hall x hx)
  obtain ⟨hedits, hscopes⟩ := append_only
  refine ⟨hbetween, hshown, (hedits ctx _ between hbetween).1 _ hshown, hown, ?_⟩
  refine ⟨_, _, rfl, rfl, rfl, ?_⟩
  exact hscopes LocalHost.nobody.sparesContext [] (.withId ⟨"A"⟩) body _ [] own []
    (List.append_nil own).symm hown _ _ rfl rfl _ rfl

end TraceLineage
