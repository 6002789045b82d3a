import Mathlib.Data.List.Infix
import Mathlib.Data.List.Nodup
import TraceLineage.Proofs.Minting.Segment

/-!
# What an id tells of its making

Neither the delimiter nor the tag can be found in an id by looking for them: the delimiter may be a
symbol of the alphabet, and both may occur in a parent.  Yet an id tells its parent and the symbols
drawn for it, because every segment of a scheme is equally long.  What stands in front of the last
segment is the parent with the delimiter, or nothing.
-/

namespace TraceLineage

namespace TraceId

/-- There is no parent that counts: none at all, or a blank one. -/
def IsMissing (parent : Option TraceId) : Prop :=
  ∀ p, parent = some p → p.isBlank = true

/-- The parent that counts. -/
def counted (parent : Option TraceId) : Option TraceId :=
  parent.filter fun p => !p.isBlank

theorem counted_of_not_blank
    {p : TraceId} (hp : p.isBlank = false) :
    counted (some p) = some p := by
  rw [counted, Option.filter_some, hp]
  rfl

theorem missing_or_counted
    (parent : Option TraceId) :
    IsMissing parent ∧ counted parent = none ∨
      ∃ p, parent = some p ∧ p.isBlank = false ∧ counted parent = some p := by
  cases parent with
  | none => exact Or.inl ⟨nofun, rfl⟩
  | some p =>
    cases hp : p.isBlank with
    | true =>
      refine Or.inl ⟨?_, ?_⟩
      · rintro _ ⟨⟩
        exact hp
      · rw [counted, Option.filter_some, hp]
        rfl
    | false => exact Or.inr ⟨p, rfl, hp, counted_of_not_blank hp⟩

theorem counted_of_missing
    {parent : Option TraceId} (hparent : IsMissing parent) :
    counted parent = none := by
  rcases missing_or_counted parent with ⟨_, hnone⟩ | ⟨p, rfl, hblank, _⟩
  · exact hnone
  · exact nomatch hblank.symm.trans (hparent p rfl)

/-- The same parents count exactly if they are equal or both missing. -/
theorem counted_eq_iff
    (p q : Option TraceId) :
    counted p = counted q ↔ p = q ∨ IsMissing p ∧ IsMissing q := by
  constructor
  · intro heq
    rcases missing_or_counted p with ⟨hp, hpnone⟩ | ⟨a, rfl, _, ha⟩
    · rcases missing_or_counted q with ⟨hq, _⟩ | ⟨b, rfl, _, hb⟩
      · exact Or.inr ⟨hp, hq⟩
      · exact nomatch hpnone.symm.trans (heq.trans hb)
    · rcases missing_or_counted q with ⟨_, hqnone⟩ | ⟨b, rfl, _, hb⟩
      · exact nomatch ha.symm.trans (heq.trans hqnone)
      · exact Or.inl (ha.symm.trans (heq.trans hb))
  · rintro (rfl | ⟨hp, hq⟩)
    · rfl
    · rw [counted_of_missing hp, counted_of_missing hq]

/-- Whether an id goes on from another one and is longer. -/
def Outgrows (b a : TraceId) : Prop :=
  b.isExtensionOf a = true ∧ b ≠ a

theorem Outgrows.trans
    {a b c : TraceId} (hcb : c.Outgrows b) (hba : b.Outgrows a) :
    c.Outgrows a := by
  refine ⟨isExtensionOf_trans hba.1 hcb.1, ?_⟩
  rintro rfl
  have hcb := (isExtensionOf_iff c b).1 hcb.1
  have hbc := (isExtensionOf_iff b c).1 hba.1
  have hlists := hbc.eq_of_length_le hcb.length_le
  exact hba.2 (congrArg TraceId.mk (String.toList_inj.1 hlists.symm))

end TraceId

theorem symbol_injective :
    Function.Injective symbol := by
  have hnodup : alphabet.Nodup := by decide +kernel
  intro i j hij
  exact Fin.ext (congrArg Fin.val (hnodup.get_inj_iff.1 hij))

/-- The same symbols are drawn exactly if the same indices are. -/
theorem Source.take_eq_iff
    (s t : Source) (n : Nat) :
    s.take n = t.take n ↔ ∀ k < n, s.index (s.drawn + k) = t.index (t.drawn + k) := by
  simp only [take, List.map_inj_left, List.mem_range, symbol_injective.eq_iff]

namespace Scheme

variable {i : Invoker} {g : Scheme i}

/-- Whatever is generated is the next segment behind the parent that counts. -/
theorem extends_of_mint
    {parent : Option TraceId} {s s' : Source} {m : Mint} (hm : g.mint parent s = (.ok m, s')) :
    g.Extends s (TraceId.counted parent) m.id := by
  simp only [mint, head] at hm
  rw [TraceId.counted]
  cases hp : parent.filter fun p => !p.isBlank with
  | none =>
    rw [hp] at hm
    cases hm
    refine ⟨fun _ => rfl, ?_⟩
    intro p hp
    cases hp
  | some p =>
    rw [hp] at hm
    cases hd : g.delimiter with
    | none =>
      simp only [delimiter?, hd] at hm
      cases hm
    | some d =>
      simp only [delimiter?, hd] at hm
      cases hm
      refine ⟨fun hnone => absurd hnone (Option.some_ne_none p), ?_⟩
      intro p' hp'
      cases hp'
      exact ⟨d, hd, String.append_assoc ..⟩

/-- A segment has as many characters as the scheme gives it bytes. -/
theorem length_segment
    (g : Scheme i) (s : Source) :
    (g.segment s).toList.length = g.length := by
  rw [← Text.utf8ByteSize_of_allVisible _ (g.allVisible_segment s), g.utf8ByteSize_segment]

theorem segment_eq_iff
    (g : Scheme i) (s t : Source) :
    g.segment s = g.segment t ↔ s.take g.randomLength = t.take g.randomLength := by
  rw [segment, segment, ← String.toList_inj, String.toList_append, String.toList_append,
    String.toList_ofList, String.toList_ofList, List.append_cancel_left_eq]

/-- What stands in front of a segment. -/
def lead (g : Scheme i) (parent : Option TraceId) : List Char :=
  parent.elim [] fun p => p.text.toList ++ g.delimiter.toList

namespace Extends

variable {s t : Source} {p q : Option TraceId} {a b : TraceId}

/-- An id in two parts, of which the second is equally long for all ids of a scheme. -/
theorem toList_text
    (ha : g.Extends s p a) :
    a.text.toList = g.lead p ++ (g.segment s).toList := by
  cases p with
  | none => exact congrArg String.toList (ha.root rfl)
  | some p =>
    obtain ⟨d, hd, htext⟩ := ha.child p rfl
    simp only [htext, lead, hd, Option.elim_some, Option.toList_some, String.toList_append,
      String.toList_singleton]

/-- Of two parents with the same lead neither is missing, or both are. -/
theorem eq_of_lead_eq
    (ha : g.Extends s p a) (hb : g.Extends t q b) (hlead : g.lead p = g.lead q) :
    p = q := by
  cases p with
  | none =>
    cases q with
    | none => rfl
    | some q =>
      obtain ⟨d, hd, _⟩ := hb.child q rfl
      simp [lead, hd] at hlead
  | some p =>
    obtain ⟨d, hd, _⟩ := ha.child p rfl
    cases q with
    | none => simp [lead, hd] at hlead
    | some q =>
      simp only [lead, Option.elim_some, List.append_cancel_right_eq, String.toList_inj] at hlead
      exact congrArg (fun text => some (TraceId.mk text)) hlead

/-- Equal ids have equal parents and equal symbols. -/
theorem eq_iff
    (ha : g.Extends s p a) (hb : g.Extends t q b) :
    a = b ↔ s.take g.randomLength = t.take g.randomLength ∧ p = q := by
  constructor
  · rintro rfl
    have hlists := ha.toList_text.symm.trans hb.toList_text
    have hlengths : (g.segment s).toList.length = (g.segment t).toList.length := by
      rw [g.length_segment, g.length_segment]
    obtain ⟨hlead, hsegment⟩ := List.append_inj' hlists hlengths
    exact ⟨(g.segment_eq_iff s t).1 (String.toList_inj.1 hsegment), ha.eq_of_lead_eq hb hlead⟩
  · rintro ⟨htake, rfl⟩
    have htext : a.text.toList = b.text.toList := by
      rw [ha.toList_text, hb.toList_text, (g.segment_eq_iff s t).2 htake]
    exact congrArg TraceId.mk (String.toList_inj.1 htext)

/-- Ids of one parent are equally long, so that none of them goes on from another. -/
theorem eq_of_isExtensionOf
    (ha : g.Extends s p a) (hb : g.Extends t p b) (hab : a.isExtensionOf b = true) :
    a = b := by
  rw [TraceId.isExtensionOf_iff] at hab
  have hlengths : b.text.toList.length = a.text.toList.length := by
    rw [ha.toList_text, hb.toList_text, List.length_append, List.length_append,
      g.length_segment, g.length_segment]
  exact congrArg TraceId.mk (String.toList_inj.1 (hab.eq_of_length hlengths).symm)

/-- Without its last bytes, which are the delimiter and the segment, an id is its parent. -/
theorem extract_eq
    {p : TraceId} (ha : g.Extends s (some p) a) :
    a.text.toUTF8.extract 0 (a.text.utf8ByteSize - (1 + g.length)) = p.text.toUTF8 := by
  have hsize := ha.utf8ByteSize_child
  obtain ⟨d, _, htext⟩ := ha.child p rfl
  have hfront : a.text.utf8ByteSize - (1 + g.length) = p.text.toUTF8.size := by
    rw [hsize, String.toUTF8, String.size_toByteArray]
    omega
  rw [hfront, htext, String.append_assoc, String.toUTF8, String.toByteArray_append]
  exact ByteArray.extract_append_eq_left rfl

end Extends

/-- The ids of several extensions, each of the one before. -/
def extensions (g : Scheme i) : Nat → TraceId → Source → Except Fault (List TraceId)
  | 0, _, _ => .ok []
  | n + 1, x, s =>
    match g.mint (some x) s with
    | (.error e, _) => .error e
    | (.ok m, s) => (g.extensions n m.id s).map (m.id :: ·)

theorem Extends.outgrows
    {s : Source} {p a : TraceId} (ha : g.Extends s (some p) a) :
    a.Outgrows p := by
  refine ⟨ha.isExtensionOf, ?_⟩
  rintro rfl
  have hsize := ha.utf8ByteSize_child
  omega

/-- Every number of extensions succeeds, unless by a root; each is longer by the same amount, and
each outgrows all before it. -/
theorem exists_extensions
    (g : Scheme i) (hroot : i.isRoot = false) (n : Nat) {x : TraceId} (hx : x.isBlank = false)
    (s : Source) :
    ∃ ids, g.extensions n x s = .ok ids ∧
      ids.map (fun id => id.text.utf8ByteSize) =
        (List.range n).map (fun k => x.text.utf8ByteSize + (k + 1) * (1 + g.length)) ∧
      (x :: ids).Pairwise fun a b => b.Outgrows a := by
  induction n generalizing x s with
  | zero => exact ⟨[], rfl, rfl, List.pairwise_singleton _ x⟩
  | succ n ih =>
    have hparent : ∀ p, some x = some p → p.isBlank = false := by
      rintro _ ⟨⟩
      exact hx
    obtain ⟨m, hm, hid⟩ := g.mint_eq_ok s hparent fun hi => nomatch hroot.symm.trans hi
    obtain ⟨ids, hids, hsizes, hchain⟩ := ih hid.isBlank_eq_false (s.skip g.randomLength)
    refine ⟨m.id :: ids, ?_, ?_, ?_⟩
    · simp only [extensions, hm, hids]
      rfl
    · have hsize := hid.utf8ByteSize_child
      rw [List.range_succ_eq_map, List.map_cons, List.map_cons, hsizes, List.map_map, hsize]
      refine congrArg₂ List.cons (by omega) (List.map_congr_left ?_)
      intro k _
      rw [Function.comp_apply, Nat.succ_eq_add_one, Nat.add_mul (k + 1) 1, Nat.one_mul]
      omega
    · have houtgrown : ∀ b ∈ m.id :: ids, b.Outgrows x := by
        intro b hb
        rcases List.mem_cons.1 hb with rfl | hb
        · exact hid.outgrows
        · exact (List.rel_of_pairwise_cons hchain hb).trans hid.outgrows
      exact List.pairwise_cons.2 ⟨houtgrown, hchain⟩

/-- An id tells its parent and its symbols, for every scheme, all parents and all symbols drawn.
Two ids are equal exactly if the same symbols were drawn for them and their parents are equal, where
all missing parents count as one; and the same symbols were drawn exactly if the same indices were,
as many as the tag leaves room for.  The parent of a child is the child without its last bytes, as
many as a delimiter and a segment have.  A number of extensions of an id are longer and longer by
that amount, and each of them outgrows all before it.  And of two ids with the same parent none goes
on from the other, unless they are the same. -/
theorem fixed_width
    (g : Scheme i) :
    (∀ (p q : Option TraceId) (s t s' t' : Source) (m n : Mint),
      g.mint p s = (.ok m, s') → g.mint q t = (.ok n, t') →
      (m.id = n.id ↔ s.take g.randomLength = t.take g.randomLength ∧
        (p = q ∨ TraceId.IsMissing p ∧ TraceId.IsMissing q))) ∧
    (∀ s t : Source, s.take g.randomLength = t.take g.randomLength ↔
      ∀ k < g.length - g.tag.utf8ByteSize, s.index (s.drawn + k) = t.index (t.drawn + k)) ∧
    (∀ (p : TraceId) (s s' : Source) (m : Mint), p.isBlank = false →
      g.mint (some p) s = (.ok m, s') →
      m.id.text.toUTF8.extract 0 (m.id.text.utf8ByteSize - (1 + g.length)) = p.text.toUTF8) ∧
    (∀ (n : Nat) (x : TraceId) (s : Source), x.isBlank = false → i.isRoot = false →
      ∃ ids, g.extensions n x s = .ok ids ∧
        ids.map (fun id => id.text.utf8ByteSize) =
          (List.range n).map (fun k => x.text.utf8ByteSize + (k + 1) * (1 + g.length)) ∧
        (x :: ids).Pairwise fun a b => b.Outgrows a) ∧
    ∀ (p : Option TraceId) (s t s' t' : Source) (m n : Mint),
      g.mint p s = (.ok m, s') → g.mint p t = (.ok n, t') →
      n.id.isExtensionOf m.id = true → n.id = m.id := by
  refine ⟨?_, fun s t => s.take_eq_iff t g.randomLength, ?_, ?_, ?_⟩
  · intro p q s t s' t' m n hm hn
    rw [(extends_of_mint hm).eq_iff (extends_of_mint hn), TraceId.counted_eq_iff]
  · intro p s s' m hp hm
    have hid := extends_of_mint hm
    rw [TraceId.counted_of_not_blank hp] at hid
    exact hid.extract_eq
  · intro n x s hx hroot
    exact g.exists_extensions hroot n hx s
  · intro p s t s' t' m n hm hn hext
    exact (extends_of_mint hn).eq_of_isExtensionOf (extends_of_mint hm) hext

/-- A parent and another one that goes on from it by a delimiter and a letter: with the same symbols
for both their children differ, although both could be split at the same delimiter.  And two ids of
one parent with the same symbols, drawn at different times, are the same, while other symbols make
another id. -/
theorem fixed_width_of_nested_parents :
    let g := standard .request
    let s : Source := ⟨fun n => ⟨n % 63, Nat.mod_lt n (by decide)⟩, 0⟩
    let p : TraceId := ⟨"é"⟩
    let q : TraceId := ⟨"é_A"⟩
    p.isBlank = false ∧ Invoker.request.isRoot = false ∧
      ∃ m n o, g.mint (some p) s = (.ok m, s.skip 6) ∧ g.mint (some q) s = (.ok n, s.skip 6) ∧
        g.mint (some q) (s.skip 63) = (.ok o, s.skip 69) ∧
        m.id ≠ n.id ∧ (∀ o' s', g.mint (some q) (s.skip 1) = (.ok o', s') → o'.id ≠ n.id) ∧
        m.id.text.toUTF8.extract 0 (m.id.text.utf8ByteSize - 7) = p.text.toUTF8 ∧
        (∃ ids, g.extensions 3 p s = .ok ids ∧
          ids.map (fun id => id.text.utf8ByteSize) = [9, 16, 23]) ∧
        o.id.isExtensionOf n.id = true ∧ o.id = n.id := by
  intro g s p q
  obtain ⟨hinjective, hindices, hparent, hextensions, hsiblings⟩ := fixed_width g
  have hp : p.isBlank = false := by decide +kernel
  have hq : q.isBlank = false := by decide +kernel
  have hm := mint_child (g := g) hp rfl s
  have hn := mint_child (g := g) hq rfl s
  have ho := mint_child (g := g) hq rfl (s.skip 63)
  refine ⟨hp, rfl, _, _, _, hm, hn, ho, ?_, ?_, hparent p s _ _ hp hm, ?_, ?_, ?_⟩
  · intro hid
    rcases ((hinjective _ _ s s _ _ _ _ hm hn).1 hid).2 with heq | ⟨hmissing, _⟩
    · exact absurd heq (by decide +kernel)
    · exact nomatch hp.symm.trans (hmissing p rfl)
  · intro o' s' ho' hid
    have hsame := (hindices _ _).1 ((hinjective _ _ _ _ _ _ _ _ ho' hn).1 hid).1 0
      (by decide +kernel)
    exact absurd hsame (by decide +kernel)
  · obtain ⟨ids, hids, hsizes, _⟩ := hextensions 3 p s hp rfl
    exact ⟨ids, hids, hsizes⟩
  · decide +kernel
  · exact hsiblings (some q) s (s.skip 63) _ _ _ _ hn ho (by decide +kernel)

end Scheme
end TraceLineage
