import TraceLineage.Boundary

/-!
# Resolutions with the same symbols

What a resolution yields depends on the context, on the inbound value and on the symbols that it
draws.  Facilities mirror each other if they have the same spans and have drawn equally many symbols
since two moments; their ids and records may differ.  From facilities that mirror each other, and
with the same symbols to draw, every resolution has the same outcome.
-/

namespace TraceLineage

theorem Source.take_skip
    (s : Source) {n k m : Nat} (hm : n + k ≤ m) :
    (s.skip n).take k = ((s.take m).drop n).take k := by
  apply List.ext_getElem
  · simp only [Source.length_take, List.length_take, List.length_drop]
    omega
  · intro i _ _
    simp [Source.take, Source.skip, Nat.add_assoc]

/-- Sources that agree on some symbols agree on every part of them. -/
theorem Source.take_skip_congr
    {s t : Source} {n k m : Nat} (hst : t.take m = s.take m) (hm : n + k ≤ m) :
    (t.skip n).take k = (s.skip n).take k := by
  rw [t.take_skip hm, s.take_skip hm, hst]

theorem Source.take_add
    (s : Source) (m n : Nat) :
    s.take (m + n) = s.take m ++ (s.skip m).take n := by
  simp [Source.take, Source.skip, List.range_add, Nat.add_assoc]

/-- A source that begins with two lists begins with the first and goes on with the second. -/
theorem Source.take_of_append
    {s : Source} {xs ys : List Char} (hs : s.take (xs ++ ys).length = xs ++ ys) :
    s.take xs.length = xs ∧ (s.skip xs.length).take ys.length = ys := by
  rw [List.length_append, s.take_add] at hs
  exact List.append_inj hs (s.length_take _)

/-- Two facilities with the same spans that have drawn equally many symbols since `s` and `t`. -/
structure Facilities.Mirrors (s t : Source) (f g : Facilities) : Prop where
  spans : g.spans = f.spans
  drawn : ∃ n, f.source = s.skip n ∧ g.source = t.skip n

namespace Facilities

theorem drawn_le_generate
    {i : Invoker} (f : Facilities) (g : Scheme i) (parent : Option TraceId) :
    f.source.drawn ≤ (f.generate g parent).2.source.drawn := by
  simp only [generate, Scheme.mint]
  cases g.head parent with
  | ok head => exact Nat.le_add_right _ _
  | error e => exact Nat.le_refl _

theorem source_inboundParent
    (inbound : Option String) (f : Facilities) :
    (inboundParent inbound f).2.source = f.source := by
  cases inbound with
  | none => rfl
  | some raw =>
    simp only [inboundParent]
    cases TraceId.ofInbound? raw with
    | some id => rfl
    | none =>
      dsimp only
      split <;> rfl

theorem drawn_le_generateAt
    (c : Config) (b : Boundary) (ctx : Context) (f : Facilities) :
    f.source.drawn ≤ (c.generateAt b ctx f).2.source.drawn := by
  cases b with
  | request inbound =>
    have hgen := drawn_le_generate (inboundParent inbound f).2 c.request (inboundParent inbound f).1
    rw [source_inboundParent] at hgen
    exact hgen
  | job =>
    simp only [Config.generateAt]
    cases ctx.get? with
    | none => exact drawn_le_generate f c.job none
    | some existing => exact Nat.le_refl _
  | handoff => exact drawn_le_generate f c.thread ctx.get?

theorem source_resolve
    (c : Config) (b : Boundary) (ctx : Context) (f : Facilities) :
    (c.resolve b ctx f).2.2.source = (c.generateAt b ctx f).2.source := by
  simp only [Config.resolve]
  rcases c.generateAt b ctx f with ⟨e | id, g⟩
  · rfl
  · dsimp only
    cases ctx.set id <;> rfl

namespace Mirrors

variable {s t : Source} {f g : Facilities}

theorem emit
    (hfg : Mirrors s t f g) (e : Event) :
    Mirrors s t (f.emit e) (g.emit e) :=
  ⟨hfg.spans, hfg.drawn⟩

theorem generate
    (hfg : Mirrors s t f g) {i : Invoker} (sc : Scheme i) (parent : Option TraceId) {m : Nat}
    (hst : t.take m = s.take m)
    (hm : (f.generate sc parent).2.source.drawn ≤ s.drawn + m) :
    (g.generate sc parent).1 = (f.generate sc parent).1 ∧
      Mirrors s t (f.generate sc parent).2 (g.generate sc parent).2 := by
  obtain ⟨n, hf, hg⟩ := hfg.drawn
  simp only [Facilities.generate, Scheme.mint] at hm ⊢
  cases hhead : sc.head parent with
  | error e => exact ⟨rfl, hfg.spans, n, hf, hg⟩
  | ok head =>
    rw [hhead] at hm
    have hbound : n + sc.randomLength ≤ m := by
      simp only [hf, Source.skip] at hm
      omega
    have htail : g.source.take sc.randomLength = f.source.take sc.randomLength := by
      rw [hf, hg]
      exact Source.take_skip_congr hst hbound
    refine ⟨?_, hfg.spans, n + sc.randomLength, ?_, ?_⟩
    · simp only [htail]
    · simp only [hf, Source.skip_skip]
    · simp only [hg, Source.skip_skip]

theorem inboundParent
    (hfg : Mirrors s t f g) (inbound : Option String) :
    (TraceLineage.inboundParent inbound g).1 = (TraceLineage.inboundParent inbound f).1 ∧
      Mirrors s t (TraceLineage.inboundParent inbound f).2
        (TraceLineage.inboundParent inbound g).2 := by
  cases inbound with
  | none => exact ⟨rfl, hfg⟩
  | some raw =>
    simp only [TraceLineage.inboundParent]
    cases TraceId.ofInbound? raw with
    | some id => exact ⟨rfl, hfg⟩
    | none =>
      dsimp only
      split
      · exact ⟨rfl, hfg⟩
      · exact ⟨rfl, hfg.emit _⟩

theorem generateAt
    (hfg : Mirrors s t f g) (c : Config) (b : Boundary) (ctx : Context) {m : Nat}
    (hst : t.take m = s.take m) (hm : (c.generateAt b ctx f).2.source.drawn ≤ s.drawn + m) :
    (c.generateAt b ctx g).1 = (c.generateAt b ctx f).1 ∧
      Mirrors s t (c.generateAt b ctx f).2 (c.generateAt b ctx g).2 := by
  cases b with
  | request inbound =>
    obtain ⟨hparent, hfg⟩ := hfg.inboundParent inbound
    simp only [Config.generateAt, hparent]
    exact hfg.generate c.request _ hst hm
  | job =>
    simp only [Config.generateAt] at hm ⊢
    cases hctx : ctx.get? with
    | none =>
      rw [hctx] at hm
      exact hfg.generate c.job none hst hm
    | some existing => exact ⟨rfl, hfg⟩
  | handoff => exact hfg.generate c.thread ctx.get? hst hm

/-- A resolution has the same outcome in facilities that mirror each other. -/
theorem resolve
    (hfg : Mirrors s t f g) (c : Config) (b : Boundary) (ctx : Context) {m : Nat}
    (hst : t.take m = s.take m) (hm : (c.resolve b ctx f).2.2.source.drawn ≤ s.drawn + m) :
    (c.resolve b ctx g).1 = (c.resolve b ctx f).1 ∧
      (c.resolve b ctx g).2.1 = (c.resolve b ctx f).2.1 ∧
      Mirrors s t (c.resolve b ctx f).2.2 (c.resolve b ctx g).2.2 := by
  rw [source_resolve] at hm
  obtain ⟨hid, hfg⟩ := hfg.generateAt c b ctx hst hm
  simp only [Config.resolve]
  rcases hf : c.generateAt b ctx f with ⟨rf, f⟩
  rcases hg : c.generateAt b ctx g with ⟨rg, g⟩
  rw [hf, hg] at hid hfg
  obtain rfl : rg = rf := hid
  cases rg with
  | error e => exact ⟨rfl, rfl, hfg⟩
  | ok id =>
    dsimp only
    cases ctx.set id with
    | error e => exact ⟨rfl, rfl, hfg⟩
    | ok ctx => exact ⟨rfl, rfl, hfg.emit _⟩

end Mirrors
end Facilities
end TraceLineage
