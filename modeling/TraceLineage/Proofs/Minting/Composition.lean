import TraceLineage.Facilities
import TraceLineage.Proofs.Minting.Injectivity

/-!
# What an id is made of

An id is a segment, with the parent and the delimiter in front of it if there is a parent that
counts.  A segment is the tag of its scheme, filled up to the length of the scheme with symbols of
the alphabet, of which there is at least one.  Every such text is generated by some source, so that
nothing but the symbols is left open.
-/

namespace TraceLineage

theorem Text.isAlphanum_iff
    (c : Char) :
    c.isAlphanum = true ↔ 65 ≤ c.toNat ∧ c.toNat ≤ 90 ∨ 97 ≤ c.toNat ∧ c.toNat ≤ 122 ∨
      48 ≤ c.toNat ∧ c.toNat ≤ 57 := by
  have hshape : c.isAlphanum =
      (decide (65 ≤ c.toNat ∧ c.toNat ≤ 90) ||
        (decide (97 ≤ c.toNat) && decide (c.toNat ≤ 122)) ||
        (decide (48 ≤ c.toNat) && decide (c.toNat ≤ 57))) := rfl
  rw [hshape]
  simp only [Bool.or_eq_true, Bool.and_eq_true, decide_eq_true_eq]
  omega

/-- The characters from one number on. -/
def charsFrom (start count : Nat) : List Char :=
  (List.range' start count).map Char.ofNat

theorem mem_charsFrom
    {c : Char} {start count : Nat} (hstart : start ≤ c.toNat) (hcount : c.toNat < start + count) :
    c ∈ charsFrom start count := by
  rw [charsFrom, List.mem_map]
  refine ⟨c.toNat, ?_, Char.ofNat_toNat c⟩
  rw [List.mem_range'_1]
  exact ⟨hstart, hcount⟩

theorem alphabet_eq :
    alphabet = charsFrom 65 26 ++ charsFrom 97 26 ++ charsFrom 48 10 ++ ['_'] := by
  decide +kernel

/-- The symbols are the ASCII letters, the digits and the underscore. -/
theorem mem_alphabet_iff
    (c : Char) :
    c ∈ alphabet ↔ c.isAlphanum = true ∨ c = '_' := by
  constructor
  · intro hc
    have hall : (alphabet.all fun c => c.isAlphanum || c = '_') = true := by decide +kernel
    have hshape := List.all_eq_true.1 hall c hc
    rwa [Bool.or_eq_true, decide_eq_true_eq] at hshape
  · rw [alphabet_eq, List.mem_append, List.mem_append, List.mem_append, Text.isAlphanum_iff]
    rintro ((⟨hfirst, hlast⟩ | ⟨hfirst, hlast⟩ | ⟨hfirst, hlast⟩) | rfl)
    · exact .inl (.inl (.inl (mem_charsFrom hfirst (by omega))))
    · exact .inl (.inl (.inr (mem_charsFrom hfirst (by omega))))
    · exact .inl (.inr (mem_charsFrom hfirst (by omega)))
    · exact .inr List.mem_cons_self

namespace Source

/-- The symbols that a source yields are found in the alphabet at its indices. -/
theorem getElem?_take
    (s : Source) {n k : Nat} (hk : k < n) :
    (s.take n)[k]? = alphabet[(s.index (s.drawn + k)).val]? := by
  have hin : (s.index (s.drawn + k)).val < alphabet.length := by
    rw [length_alphabet]
    exact (s.index (s.drawn + k)).isLt
  rw [take, List.getElem?_map, List.getElem?_range hk, Option.map_some,
    List.getElem?_eq_getElem hin]
  rfl

/-- Any symbols are the next ones of some source. -/
theorem exists_take
    {cs : List Char} (hcs : ∀ c ∈ cs, c ∈ alphabet) :
    ∃ s : Source, s.take cs.length = cs := by
  have hindex : ∀ k, ∃ i : Fin alphabetSize, ∀ hk : k < cs.length, symbol i = cs[k] := by
    intro k
    by_cases hk : k < cs.length
    · obtain ⟨i, hi⟩ := List.mem_iff_get.1 (hcs _ (List.getElem_mem hk))
      exact ⟨i, fun _ => hi⟩
    · exact ⟨0, fun hlt => absurd hlt hk⟩
  choose index hindex using hindex
  refine ⟨⟨index, 0⟩, ?_⟩
  apply List.ext_getElem
  · exact length_take _ _
  · intro k _ hk
    simp only [take, List.getElem_map, List.getElem_range, Nat.zero_add]
    exact hindex k hk

end Source

namespace Scheme

variable {i : Invoker}

/-- The tag of a scheme, filled up with symbols. -/
structure Fills (g : Scheme i) (symbols : List Char) (text : String) : Prop where
  text_eq : text = g.tag ++ String.ofList symbols
  size_eq : text.utf8ByteSize = g.length
  length_add : symbols.length + g.tag.utf8ByteSize = g.length
  length_pos : 1 ≤ symbols.length
  symbols_mem : ∀ c ∈ symbols, c.isAlphanum = true ∨ c = '_'

theorem fills_segment
    (g : Scheme i) (s : Source) :
    g.Fills (s.take (g.length - g.tag.utf8ByteSize)) (g.segment s) := by
  have hshort := g.tag_lt_length
  have hlength := s.length_take (g.length - g.tag.utf8ByteSize)
  constructor
  · rfl
  · exact g.utf8ByteSize_segment s
  · omega
  · omega
  · intro c hc
    exact (mem_alphabet_iff c).1 (Source.mem_alphabet_of_mem_take hc)

/-- There is no further condition on a segment. -/
theorem Fills.exists_source
    {g : Scheme i} {symbols : List Char} {text : String} (h : g.Fills symbols text) :
    ∃ s : Source, g.segment s = text := by
  have hmem : ∀ c ∈ symbols, c ∈ alphabet := by
    intro c hc
    exact (mem_alphabet_iff c).2 (h.symbols_mem c hc)
  obtain ⟨s, hs⟩ := Source.exists_take hmem
  have hrandom : g.randomLength = symbols.length := by
    have hadd := h.length_add
    rw [randomLength]
    omega
  refine ⟨s, ?_⟩
  rw [segment, hrandom, hs, h.text_eq]

/-- Several segments in a row are as many, and each of them is one. -/
theorem segments_spec
    (g : Scheme i) (n : Nat) (s : Source) :
    (g.segments n s).length = n ∧ ∀ text ∈ g.segments n s, ∃ t, g.segment t = text := by
  induction n generalizing s with
  | zero => exact ⟨rfl, fun _ ht => absurd ht List.not_mem_nil⟩
  | succ n ih =>
    obtain ⟨hlength, hrest⟩ := ih (s.skip g.randomLength)
    constructor
    · rw [segments, List.length_cons, hlength]
    · intro text ht
      rw [segments] at ht
      rcases List.mem_cons.1 ht with hfirst | hlater
      · exact ⟨s, hfirst.symm⟩
      · exact hrest text hlater

/-! ## Parents -/

theorem mint_counted
    (g : Scheme i) (parent : Option TraceId) (s : Source) :
    g.mint parent s = g.mint (TraceId.counted parent) s := by
  have hhead : g.head parent = g.head (TraceId.counted parent) := by
    rw [head, head, TraceId.counted, Option.filter_filter]
    simp only [Bool.and_self]
  rw [mint, mint, hhead]

theorem mint_child_of_root
    (g : Scheme i) (hroot : i.isRoot = true) {p : TraceId} (hp : p.isBlank = false) (s : Source) :
    g.mint (some p) s = (.error (.state (.rootDelimiter i)), s) := by
  have hnone : g.delimiter = none := by
    have hsome := g.delimiter_isSome
    rw [hroot] at hsome
    exact Option.not_isSome_iff_eq_none.1 (Bool.eq_false_iff.1 hsome)
  have hhead : g.head (some p) = .error (.state (.rootDelimiter i)) := by
    simp only [head, Option.filter_some, hp, delimiter?, hnone]
    rfl
  rw [mint, hhead]

end Scheme

namespace Facilities

variable {i : Invoker}

/-- What is left of the facilities when an id of a scheme has been generated. -/
def afterMint (f : Facilities) (g : Scheme i) (m : Mint) : Facilities :=
  { f with
    source := f.source.skip (g.length - g.tag.utf8ByteSize)
    minted := f.minted ++ [m] }

theorem generate_of_mint
    {f : Facilities} {g : Scheme i} {parent : Option TraceId} {m : Mint}
    (hm : g.mint parent f.source = (.ok m, f.source.skip g.randomLength)) :
    f.generate g parent = (.ok m.id, f.afterMint g m) := by
  rw [generate, hm]
  rfl

/-- Ids are composed as their schemes say, for every scheme, every parent and every source.  A
segment is the tag filled up to the exact length with symbols of the alphabet; the room for them is
never negative, and every index that the source yields is one of the alphabet.  Without a parent
that counts the id is a segment.  Otherwise it is the parent as it stands, the delimiter and a
segment, except for a root, which is refused and draws nothing.  An id is never blank and goes on
from the parent that counts. -/
theorem generate_composes
    (g : Scheme i) :
    (∀ text, (∃ s, g.segment s = text) ↔ ∃ symbols, g.Fills symbols text) ∧
    (∀ n s, (g.segments n s).length = n ∧
      ∀ text ∈ g.segments n s, ∃ symbols, g.Fills symbols text) ∧
    ∀ (f : Facilities) (parent : Option TraceId),
      let room := g.length - g.tag.utf8ByteSize
      let segment := g.segment f.source
      g.Fills (f.source.take room) segment ∧
      (∀ k, k < room → (f.source.take room)[k]? =
        alphabet[(f.source.index (f.source.drawn + k)).val]?) ∧
      (TraceId.IsMissing parent → ∃ m : Mint, m.id.text = segment ∧
        f.generate g parent = (.ok m.id, f.afterMint g m)) ∧
      (∀ p, parent = some p → p.isBlank = false →
        (i.isRoot = true →
          f.generate g parent = (.error (.state (.rootDelimiter i)), f)) ∧
        (i.isRoot = false → ∃ (d : Char) (m : Mint), g.delimiter? = .ok d ∧
          m.id.text = p.text ++ String.singleton d ++ segment ∧
          f.generate g parent = (.ok m.id, f.afterMint g m))) ∧
      ∀ id f', f.generate g parent = (.ok id, f') →
        id.isBlank = false ∧
          ∀ p, TraceId.counted parent = some p → id.isExtensionOf p = true := by
  refine ⟨?_, ?_, ?_⟩
  · intro text
    constructor
    · rintro ⟨s, rfl⟩
      exact ⟨_, g.fills_segment s⟩
    · rintro ⟨symbols, hfills⟩
      exact hfills.exists_source
  · intro n s
    obtain ⟨hlength, hsegments⟩ := g.segments_spec n s
    refine ⟨hlength, ?_⟩
    intro text ht
    obtain ⟨t, rfl⟩ := hsegments text ht
    exact ⟨_, g.fills_segment t⟩
  · intro f parent room segment
    refine ⟨g.fills_segment f.source, fun k hk => f.source.getElem?_take hk, ?_, ?_, ?_⟩
    · intro hmissing
      have hm := g.mint_counted parent f.source
      rw [TraceId.counted_of_missing hmissing] at hm
      exact ⟨_, rfl, generate_of_mint hm⟩
    · rintro p rfl hp
      constructor
      · intro hroot
        rw [generate, g.mint_child_of_root hroot hp]
      · intro hroot
        have hsome := g.delimiter_isSome
        rw [hroot] at hsome
        obtain ⟨d, hd⟩ := Option.isSome_iff_exists.1 hsome
        have hm := Scheme.mint_child hp hd f.source
        refine ⟨d, _, ?_, ?_, generate_of_mint hm⟩
        · rw [Scheme.delimiter?, hd]
        · exact String.append_assoc ..
    · intro id f' hid
      simp only [generate] at hid
      rcases hm : g.mint parent f.source with ⟨e | m, s⟩
      · rw [hm] at hid
        cases hid
      · rw [hm] at hid
        cases hid
        have hextends := Scheme.extends_of_mint hm
        refine ⟨hextends.isBlank_eq_false, ?_⟩
        intro p hp
        rw [hp] at hextends
        exact hextends.isExtensionOf

/-- A parent that is not trimmed and not ASCII, a blank one, and one for a root. -/
theorem generate_composes_of_untrimmed_parent :
    let f : Facilities := .fresh ⟨fun n => ⟨n % 63, Nat.mod_lt n (by decide)⟩, 0⟩
    let p : TraceId := ⟨"é "⟩
    let blank : TraceId := ⟨"\t "⟩
    p.isBlank = false ∧ TraceId.IsMissing (some blank) ∧
      Invoker.request.isRoot = false ∧ Invoker.job.isRoot = true ∧
      (∃ g, Scheme.build .request ⟨some "r-", some '.', some 5⟩ = .ok g ∧
        (f.generate g (some p)).1 = .ok ⟨"é .r-ABC"⟩ ∧
        (f.generate g (some blank)).1 = .ok ⟨"r-ABC"⟩) ∧
      f.generate (Scheme.standard .job) (some p) = (.error (.state (.rootDelimiter .job)), f) := by
  intro f p blank
  have hp : p.isBlank = false := by decide +kernel
  have hblank : TraceId.IsMissing (some blank) := by
    rintro _ ⟨⟩
    decide +kernel
  let g : Scheme .request :=
    ⟨"r-", some '.', 5, by decide, by decide, by decide +kernel, by decide +kernel, rfl, rfl⟩
  have hsegment : g.segment f.source = "r-ABC" := by decide +kernel
  obtain ⟨_, _, hrequest⟩ := generate_composes g
  obtain ⟨_, _, hjob⟩ := generate_composes (Scheme.standard .job)
  refine ⟨hp, hblank, rfl, rfl, ⟨g, rfl, ?_, ?_⟩, ?_⟩
  · obtain ⟨_, _, _, hchild, _⟩ := hrequest f (some p)
    obtain ⟨d, m, hd, htext, hgen⟩ := (hchild p rfl hp).2 rfl
    cases hd
    rw [hsegment] at htext
    rw [hgen]
    exact congrArg (fun text => Except.ok (TraceId.mk text)) htext
  · obtain ⟨_, _, hmissing, _, _⟩ := hrequest f (some blank)
    obtain ⟨m, htext, hgen⟩ := hmissing hblank
    rw [hsegment] at htext
    rw [hgen]
    exact congrArg (fun text => Except.ok (TraceId.mk text)) htext
  · obtain ⟨_, _, _, hchild, _⟩ := hjob f (some p)
    exact (hchild p rfl hp).1 rfl

end Facilities
end TraceLineage
