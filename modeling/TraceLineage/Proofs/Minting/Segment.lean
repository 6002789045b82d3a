import TraceLineage.Minting.Mint

/-!
# Segments

What generating an id appends: the tag of the scheme and the symbols drawn for it.  A segment
consists of visible characters and has just the length of its scheme.  It stands alone if there is
no parent and behind the parent and a delimiter otherwise; no parent is refused except by a root.
-/

namespace TraceLineage

theorem Text.isWhiteSpace_of_isVisible
    {c : Char} (hc : Text.isVisible c = true) :
    Text.isWhiteSpace c = false := by
  simp only [isVisible, Bool.and_eq_true, decide_eq_true_eq] at hc
  simp [isWhiteSpace, whiteSpaceRanges]
  omega

theorem Text.isBlank_of_allVisible
    {s : String} (hs : Text.allVisible s = true) (hne : s ≠ "") :
    Text.isBlank s = false := by
  rw [Text.allVisible, List.all_eq_true] at hs
  rw [Text.isBlank, List.all_eq_false]
  have hcs : s.toList ≠ [] := fun hnil => hne (String.toList_inj.1 hnil)
  obtain ⟨c, hc⟩ := List.exists_mem_of_ne_nil _ hcs
  refine ⟨c, hc, ?_⟩
  rw [Text.isWhiteSpace_of_isVisible (hs c hc)]
  exact Bool.false_ne_true

theorem isVisible_of_mem_alphabet :
    ∀ c ∈ alphabet, Text.isVisible c = true :=
  List.all_eq_true.1 (by decide +kernel)

namespace Source

theorem allVisible_take
    (s : Source) (n : Nat) :
    Text.allVisible (String.ofList (s.take n)) = true := by
  rw [Text.allVisible, String.toList_ofList, List.all_eq_true]
  intro c hc
  exact isVisible_of_mem_alphabet c (mem_alphabet_of_mem_take hc)

theorem utf8ByteSize_take
    (s : Source) (n : Nat) :
    (String.ofList (s.take n)).utf8ByteSize = n := by
  rw [Text.utf8ByteSize_of_allVisible _ (s.allVisible_take n), String.toList_ofList,
    s.length_take]

end Source

namespace Scheme

variable {i : Invoker}

/-- The next segment. -/
def segment (g : Scheme i) (s : Source) : String :=
  g.tag ++ String.ofList (s.take g.randomLength)

theorem utf8ByteSize_segment
    (g : Scheme i) (s : Source) :
    (g.segment s).utf8ByteSize = g.length := by
  rw [segment, String.utf8ByteSize_append, s.utf8ByteSize_take]
  exact Nat.add_sub_cancel' (Nat.le_of_lt g.tag_lt_length)

theorem allVisible_segment
    (g : Scheme i) (s : Source) :
    Text.allVisible (g.segment s) = true := by
  rw [segment, Text.allVisible_append, g.tag_visible, s.allVisible_take]
  rfl

theorem isBlank_segment
    (g : Scheme i) (s : Source) :
    Text.isBlank (g.segment s) = false := by
  refine Text.isBlank_of_allVisible (g.allVisible_segment s) ?_
  intro hempty
  have hlength := g.utf8ByteSize_segment s
  rw [hempty, String.utf8ByteSize_empty] at hlength
  have hpos := g.tag_lt_length
  omega

/-- `id` is the next segment, behind the parent and the delimiter if there is a parent. -/
structure Extends (g : Scheme i) (s : Source) (parent : Option TraceId) (id : TraceId) : Prop where
  root : parent = none → id.text = g.segment s
  child : ∀ p, parent = some p →
    ∃ d, g.delimiter = some d ∧ id.text = p.text ++ String.singleton d ++ g.segment s

theorem Extends.isExtensionOf
    {g : Scheme i} {s : Source} {p id : TraceId} (hid : g.Extends s (some p) id) :
    id.isExtensionOf p = true := by
  obtain ⟨d, _, htext⟩ := hid.child p rfl
  rw [String.append_assoc] at htext
  have hid : id = ⟨p.text ++ (String.singleton d ++ g.segment s)⟩ := by
    rw [← htext]
  rw [hid]
  exact p.isExtensionOf_append _

theorem Extends.isBlank_eq_false
    {g : Scheme i} {s : Source} {parent : Option TraceId} {id : TraceId}
    (hid : g.Extends s parent id) :
    id.isBlank = false := by
  cases parent with
  | none =>
    rw [TraceId.isBlank, hid.root rfl]
    exact g.isBlank_segment s
  | some p =>
    obtain ⟨d, _, htext⟩ := hid.child p rfl
    rw [TraceId.isBlank, htext, Text.isBlank_append, g.isBlank_segment s, Bool.and_false]

theorem Extends.allVisible
    {g : Scheme i} {s : Source} {parent : Option TraceId} {id : TraceId}
    (hid : g.Extends s parent id) (hparent : ∀ p, parent = some p → Text.allVisible p.text = true) :
    Text.allVisible id.text = true := by
  cases parent with
  | none =>
    rw [hid.root rfl]
    exact g.allVisible_segment s
  | some p =>
    obtain ⟨d, hd, htext⟩ := hid.child p rfl
    have hvisible := g.delimiter_visible
    rw [hd, Option.all_some] at hvisible
    rw [htext, Text.allVisible_append, Text.allVisible_append, hparent p rfl,
      g.allVisible_segment s, Text.allVisible, String.toList_singleton, List.all_cons, hvisible]
    rfl

/-- A child is longer than its parent by a delimiter and a segment. -/
theorem Extends.utf8ByteSize_child
    {g : Scheme i} {s : Source} {p id : TraceId} (hid : g.Extends s (some p) id) :
    id.text.utf8ByteSize = p.text.utf8ByteSize + 1 + g.length := by
  obtain ⟨d, hd, htext⟩ := hid.child p rfl
  have hvisible := g.delimiter_visible
  rw [hd, Option.all_some] at hvisible
  rw [htext, String.utf8ByteSize_append, String.utf8ByteSize_append,
    String.utf8ByteSize_singleton, Text.utf8Size_of_isVisible hvisible, g.utf8ByteSize_segment]

theorem Extends.utf8ByteSize_root
    {g : Scheme i} {s : Source} {id : TraceId} (hid : g.Extends s none id) :
    id.text.utf8ByteSize = g.length := by
  rw [hid.root rfl, g.utf8ByteSize_segment]

theorem mint_child
    {g : Scheme i} {p : TraceId} (hp : p.isBlank = false) {d : Char} (hd : g.delimiter = some d)
    (s : Source) :
    g.mint (some p) s =
      (.ok ⟨p.text ++ String.singleton d ++ g.tag, String.ofList (s.take g.randomLength)⟩,
        s.skip g.randomLength) := by
  have hhead : g.head (some p) = .ok (p.text ++ String.singleton d ++ g.tag) := by
    simp only [head, Option.filter_some, hp, delimiter?, hd]
    rfl
  rw [mint, hhead]

theorem mint_eq_ok
    (g : Scheme i) {parent : Option TraceId} (s : Source)
    (hparent : ∀ p, parent = some p → p.isBlank = false)
    (hroot : i.isRoot = true → parent = none) :
    ∃ m, g.mint parent s = (.ok m, s.skip g.randomLength) ∧ g.Extends s parent m.id := by
  cases parent with
  | none => exact ⟨_, rfl, fun _ => rfl, nofun⟩
  | some p =>
    have hnotroot : i.isRoot = false := Bool.eq_false_iff.2 fun hi => nomatch hroot hi
    have hsome := g.delimiter_isSome
    rw [hnotroot, Bool.not_false] at hsome
    obtain ⟨d, hd⟩ := Option.isSome_iff_exists.1 hsome
    refine ⟨_, mint_child (hparent p rfl) hd s, nofun, ?_⟩
    rintro _ ⟨⟩
    exact ⟨d, hd, String.append_assoc ..⟩

end Scheme
end TraceLineage
