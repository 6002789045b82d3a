import TraceLineage.Proofs.Config.ReadBack

/-!
# Accepted settings

Which settings are accepted is stated here without the checks: a list of rules in the order in which
they matter, each with the fault that reports its violation.  Settings are loaded exactly if all
rules hold, and then the configuration says what was requested with the defaults filled in;
otherwise the first violated rule is reported and nothing is written.
-/

namespace TraceLineage

namespace Text

/-- A text in which every character is one of the printing ASCII characters from `!` to `~`. -/
def Printing (s : String) : Prop :=
  ∀ c ∈ s.toList, 0x21 ≤ c.toNat ∧ c.toNat ≤ 0x7e

/-- A text that is not empty and consists of ASCII letters, digits and token marks. -/
def Token (s : String) : Prop :=
  s ≠ "" ∧ ∀ c ∈ s.toList, c.isAlphanum = true ∨ c ∈ tokenMarks

/-- A text with a character that is no white space. -/
def Nonblank (s : String) : Prop :=
  ∃ c ∈ s.toList, isWhiteSpace c = false

theorem isVisible_iff
    (c : Char) :
    isVisible c = true ↔ 0x21 ≤ c.toNat ∧ c.toNat ≤ 0x7e := by
  simp only [isVisible, Bool.and_eq_true, decide_eq_true_eq]

theorem allVisible_iff_printing
    (s : String) :
    allVisible s = true ↔ Printing s := by
  simp only [allVisible, Printing, List.all_eq_true, isVisible_iff]

theorem allVisible_empty : allVisible "" = true := rfl

theorem isToken_iff_token
    (s : String) :
    isToken s = true ↔ Token s := by
  simp only [isToken, Token, isTokenChar, Bool.and_eq_true, decide_eq_true_eq, List.all_eq_true,
    Bool.or_eq_true, List.contains_iff_mem]

theorem isBlank_eq_false_iff
    (s : String) :
    isBlank s = false ↔ Nonblank s := by
  rw [isBlank, Nonblank, List.all_eq_false]
  simp only [Bool.not_eq_true]

instance (s : String) : Decidable (Printing s) :=
  decidable_of_iff _ (allVisible_iff_printing s)

instance (s : String) : Decidable (Token s) :=
  decidable_of_iff _ (isToken_iff_token s)

instance (s : String) : Decidable (Nonblank s) :=
  decidable_of_iff _ (isBlank_eq_false_iff s)

end Text

/-- A rule on settings with the fault that reports its violation. -/
structure Rule where
  holds : Prop
  fault : ConfigFault
  [decidable : Decidable holds]

namespace Rule

attribute [instance] decidable

/-- The rule is the first of some that does not hold. -/
def IsFirstViolated (r : Rule) (rules : List Rule) : Prop :=
  ∃ before after, rules = before ++ r :: after ∧ (∀ q ∈ before, q.holds) ∧ ¬r.holds

/-- The faults of the rules that do not hold. -/
def violations (rules : List Rule) : List ConfigFault :=
  rules.flatMap fun r => violation r.holds r.fault

theorem violations_cons
    (r : Rule) (rules : List Rule) :
    violations (r :: rules) = violation r.holds r.fault ++ violations rules :=
  List.flatMap_cons

theorem violations_append
    (rules rules' : List Rule) :
    violations (rules ++ rules') = violations rules ++ violations rules' :=
  List.flatMap_append

theorem violations_flatMap
    {α : Type} (as : List α) (f : α → List Rule) :
    violations (as.flatMap f) = as.flatMap fun a => violations (f a) :=
  List.flatMap_assoc

/-- Nothing is violated, or there is a first rule that is, and its fault comes first. -/
theorem violations_cases
    (rules : List Rule) :
    ((∀ r ∈ rules, r.holds) ∧ violations rules = []) ∨
      ∃ r : Rule, r.IsFirstViolated rules ∧ (violations rules).head? = some r.fault := by
  induction rules with
  | nil =>
    left
    constructor
    · intro r hr
      cases hr
    · rfl
  | cons r rules ih =>
    rw [violations_cons]
    by_cases hr : r.holds
    · rw [violation, if_pos hr, List.nil_append]
      rcases ih with ⟨hall, hnil⟩ | ⟨q, ⟨before, after, heq, hbefore, hq⟩, hhead⟩
      · left
        exact ⟨List.forall_mem_cons.2 ⟨hr, hall⟩, hnil⟩
      · right
        refine ⟨q, ⟨r :: before, after, ?_, ?_, hq⟩, hhead⟩
        · rw [heq, List.cons_append]
        · exact List.forall_mem_cons.2 ⟨hr, hbefore⟩
    · right
      rw [violation, if_neg hr]
      refine ⟨r, ⟨[], rules, rfl, ?_, hr⟩, rfl⟩
      intro q hq
      cases hq

/-- Not all of some rules hold if one of them is the first that does not. -/
theorem IsFirstViolated.not_forall
    {r : Rule} {rules : List Rule} (hr : r.IsFirstViolated rules) :
    ¬∀ q ∈ rules, q.holds := by
  obtain ⟨before, after, rfl, -, hviolated⟩ := hr
  intro hall
  apply hviolated
  apply hall
  exact List.mem_append_right before List.mem_cons_self

end Rule

theorem violation_of_holds
    {p : Prop} [Decidable p] (hp : p) (e : ConfigFault) :
    violation p e = [] :=
  if_pos hp

theorem violation_congr
    {p q : Prop} [Decidable p] [Decidable q] (hpq : p ↔ q) (e : ConfigFault) :
    violation p e = violation q e := by
  by_cases hp : p
  · rw [violation, violation, if_pos hp, if_pos (hpq.1 hp)]
  · have hq : ¬q := fun hq => hp (hpq.2 hq)
    rw [violation, violation, if_neg hp, if_neg hq]

/-! ## The rules in their order -/

/-- The rules on a requested tag; the empty tag is as good as none. -/
def SchemeParts.tagRules (i : Invoker) (length : Nat) (t : String) : List Rule :=
  [⟨t = "" ∨ Text.Printing t, .tagNotVisible i t⟩,
    ⟨t = "" ∨ t.utf8ByteSize < length, .tagTooLong i t length⟩]

def SchemeParts.delimiterRules (i : Invoker) (d : Char) : List Rule :=
  [⟨i.isRoot = false, .delimiterOfRoot i d⟩,
    ⟨i.isRoot = true ∨ 0x21 ≤ d.toNat ∧ d.toNat ≤ 0x7e, .delimiterNotVisible i d⟩]

/-- The rules on the parts of a scheme.  A tag is compared with the length that is used, whether it
was requested or not. -/
def SchemeParts.rules (s : SchemeParts) (i : Invoker) : List Rule :=
  let length := s.length.getD i.defaultLength
  [⟨i.minLength ≤ length ∧ length ≤ i.maxLength, .lengthOutOfRange i length⟩] ++
    s.tag.toList.flatMap (tagRules i length) ++
    s.delimiter.toList.flatMap (delimiterRules i)

/-- The rules on a copied header, the key before the name. -/
def CopiedHeader.rules (a : CopiedHeader) : List Rule :=
  [⟨Text.Nonblank a.key, .blankKey a.name⟩, ⟨Text.Token a.name, .headerName a.name⟩]

def Settings.rules (s : Settings) : List Rule :=
  [⟨Text.Token s.headerName, .headerName s.headerName⟩] ++
    s.copiedHeaders.flatMap CopiedHeader.rules ++
    [Invoker.request, .job, .thread].flatMap fun i => (s.parts i).rules i

structure SchemeParts.Valid (s : SchemeParts) (i : Invoker) : Prop where
  length_mem : i.minLength ≤ s.length.getD i.defaultLength ∧
    s.length.getD i.defaultLength ≤ i.maxLength
  tag : ∀ t, s.tag = some t →
    t = "" ∨ Text.Printing t ∧ t.utf8ByteSize < s.length.getD i.defaultLength
  delimiter : ∀ d, s.delimiter = some d →
    i.isRoot = false ∧ 0x21 ≤ d.toNat ∧ d.toNat ≤ 0x7e

/-- Settings that describe a configuration. -/
structure Settings.Valid (s : Settings) : Prop where
  headerName : Text.Token s.headerName
  copiedHeaders : ∀ a ∈ s.copiedHeaders, Text.Nonblank a.key ∧ Text.Token a.name
  schemes : ∀ i, (s.parts i).Valid i

theorem SchemeParts.forall_rules_iff
    (s : SchemeParts) (i : Invoker) :
    (∀ r ∈ s.rules i, r.holds) ↔ s.Valid i := by
  simp only [rules, tagRules, delimiterRules, List.forall_mem_append, List.forall_mem_flatMap,
    List.forall_mem_cons, List.not_mem_nil, false_implies, implies_true, and_true,
    Option.mem_toList]
  constructor
  · rintro ⟨⟨hlength, htag⟩, hdelimiter⟩
    refine ⟨hlength, ?_, ?_⟩
    · intro t ht
      obtain ⟨hprinting, hshort⟩ := htag t ht
      by_cases hempty : t = ""
      · exact .inl hempty
      · exact .inr ⟨hprinting.resolve_left hempty, hshort.resolve_left hempty⟩
    · intro d hd
      obtain ⟨hroot, hvisible⟩ := hdelimiter d hd
      refine ⟨hroot, hvisible.resolve_left ?_⟩
      rw [hroot]
      exact Bool.false_ne_true
  · intro hvalid
    refine ⟨⟨hvalid.length_mem, ?_⟩, ?_⟩
    · intro t ht
      rcases hvalid.tag t ht with hempty | ⟨hprinting, hshort⟩
      · exact ⟨.inl hempty, .inl hempty⟩
      · exact ⟨.inr hprinting, .inr hshort⟩
    · intro d hd
      obtain ⟨hroot, hvisible⟩ := hvalid.delimiter d hd
      exact ⟨hroot, .inr hvisible⟩

theorem Settings.forall_rules_iff
    (s : Settings) :
    (∀ r ∈ s.rules, r.holds) ↔ s.Valid := by
  simp only [rules, List.forall_mem_append, List.forall_mem_flatMap, List.forall_mem_cons,
    CopiedHeader.rules, SchemeParts.forall_rules_iff, List.not_mem_nil, false_implies,
    implies_true, and_true]
  constructor
  · rintro ⟨⟨hname, hcopied⟩, hrequest, hjob, hthread⟩
    refine ⟨hname, hcopied, ?_⟩
    intro i
    cases i with
    | request => exact hrequest
    | job => exact hjob
    | thread => exact hthread
  · intro hvalid
    exact ⟨⟨hvalid.headerName, hvalid.copiedHeaders⟩, hvalid.schemes .request,
      hvalid.schemes .job, hvalid.schemes .thread⟩

/-! ## The faults that are found are those of the rules -/

theorem CopiedHeader.violations_rules
    (a : CopiedHeader) :
    Rule.violations a.rules = a.faults := by
  simp only [rules, Rule.violations, faults, List.flatMap_cons, List.flatMap_nil, List.append_nil,
    violation_congr (Text.isBlank_eq_false_iff a.key),
    violation_congr (Text.isToken_iff_token a.name)]

/-- An absent tag is checked like an empty one, which no positive length refuses. -/
theorem SchemeParts.violations_tagRules
    (i : Invoker) {length : Nat} (hpos : 0 < length) (tag : Option String) :
    Rule.violations (tag.toList.flatMap (tagRules i length)) =
      violation (Text.allVisible (tag.getD "") = true) (.tagNotVisible i (tag.getD "")) ++
        violation ((tag.getD "").utf8ByteSize < length) (.tagTooLong i (tag.getD "") length) := by
  have hshort : "".utf8ByteSize < length := hpos
  cases tag with
  | none =>
    rw [Option.getD_none, violation_of_holds Text.allVisible_empty, violation_of_holds hshort]
    rfl
  | some t =>
    simp only [Option.toList_some, List.flatMap_cons, List.flatMap_nil, List.append_nil,
      tagRules, Rule.violations, Option.getD_some]
    by_cases ht : t = ""
    · subst ht
      rw [violation_of_holds (.inl rfl), violation_of_holds (.inl rfl),
        violation_of_holds Text.allVisible_empty, violation_of_holds hshort]
    · simp only [ht, false_or, violation_congr (Text.allVisible_iff_printing t)]

theorem SchemeParts.violations_delimiterRules
    (i : Invoker) (delimiter : Option Char) :
    Rule.violations (delimiter.toList.flatMap (delimiterRules i)) =
      delimiter.toList.flatMap fun d =>
        if i.isRoot = true then [.delimiterOfRoot i d]
        else violation (Text.isVisible d = true) (.delimiterNotVisible i d) := by
  cases delimiter with
  | none => rfl
  | some d =>
    simp only [Option.toList_some, List.flatMap_cons, List.flatMap_nil, List.append_nil,
      delimiterRules, Rule.violations]
    by_cases hroot : i.isRoot = true
    · simp [violation, hroot]
    · simp [violation, hroot, ← Text.isVisible_iff]

/-- The first fault is that of the first violated rule, also where the length is refused and more
faults would follow. -/
theorem SchemeParts.head?_violations
    (s : SchemeParts) (i : Invoker) :
    (Rule.violations (s.rules i)).head? = (s.faults i).head? := by
  simp only [rules, faults, List.append_assoc, List.cons_append, List.nil_append,
    Rule.violations_cons]
  by_cases hlength : i.minLength ≤ s.length.getD i.defaultLength ∧
      s.length.getD i.defaultLength ≤ i.maxLength
  · have hmin : 0 < i.minLength := by cases i <;> decide
    have hpos : 0 < s.length.getD i.defaultLength := Nat.lt_of_lt_of_le hmin hlength.1
    simp only [Rule.violations_append, violations_tagRules i hpos, violations_delimiterRules,
      List.append_assoc]
  · simp only [violation, if_neg hlength, List.cons_append, List.head?_cons]

theorem Settings.head?_violations
    (s : Settings) :
    (Rule.violations s.rules).head? = s.faults.head? := by
  simp only [rules, faults, Rule.violations_append, Rule.violations_cons,
    Rule.violations_flatMap, CopiedHeader.violations_rules, List.append_assoc, List.cons_append,
    List.nil_append, List.flatMap_cons, List.flatMap_nil, List.append_nil, List.head?_append,
    SchemeParts.head?_violations, parts, violation_congr (Text.isToken_iff_token s.headerName)]

/-! ## What is loaded -/

/-- The scheme says what was requested, with the defaults filled in. -/
structure Scheme.Realizes {i : Invoker} (g : Scheme i) (s : SchemeParts) : Prop where
  tag : g.tag? = s.tag.filter fun t => t ≠ ""
  delimiter : g.delimiter =
    if i.isRoot = true then none else some (s.delimiter.getD Invoker.defaultDelimiter)
  length : g.length = s.length.getD i.defaultLength

/-- The configuration says what was requested, with the defaults filled in. -/
structure Config.Realizes (c : Config) (s : Settings) : Prop where
  headerName : c.headerName = s.headerName
  copiedHeaders : c.copiedHeaders = s.copiedHeaders
  schemes : ∀ i, (c.scheme i).Realizes (s.parts i)

theorem Scheme.chooseDelimiter_eq_ok
    {i : Invoker} {requested : Option Char}
    {d : { d : Option Char // d.isSome = (!i.isRoot) ∧ d.all Text.isVisible = true }}
    (hd : chooseDelimiter i requested = .ok d) :
    d.val = if i.isRoot = true then none else some (requested.getD Invoker.defaultDelimiter) := by
  by_cases hroot : i.isRoot = true
  · rw [if_pos hroot, ← Option.not_isSome_iff_eq_none, d.property.1, hroot]
    decide
  · simp only [chooseDelimiter, hroot, dif_neg, Bool.false_eq_true, not_false_eq_true] at hd
    rw [if_neg hroot]
    by_cases hvisible : Text.isVisible (requested.getD Invoker.defaultDelimiter) = true
    · rw [dif_pos hvisible, Except.ok.injEq] at hd
      rw [← hd]
    · rw [dif_neg hvisible] at hd
      cases hd

theorem Scheme.build_eq_ok
    {i : Invoker} {s : SchemeParts} {g : Scheme i} (hg : build i s = .ok g) :
    ∃ d, chooseDelimiter i s.delimiter = .ok d ∧ g.delimiter = d.val ∧
      g.tag = s.tag.getD "" ∧ g.length = s.length.getD i.defaultLength := by
  simp only [build] at hg
  split at hg
  · split at hg
    · split at hg
      · cases hd : chooseDelimiter i s.delimiter with
        | error e =>
          rw [hd] at hg
          cases hg
        | ok d =>
          rw [hd] at hg
          cases hg
          exact ⟨d, rfl, rfl, rfl, rfl⟩
      · cases hg
    · cases hg
  · cases hg

theorem Scheme.build_realizes
    {i : Invoker} {s : SchemeParts} {g : Scheme i} (hg : build i s = .ok g) :
    g.Realizes s := by
  obtain ⟨d, hd, hdelimiter, htag, hlength⟩ := build_eq_ok hg
  refine ⟨?_, hdelimiter.trans (chooseDelimiter_eq_ok hd), hlength⟩
  rw [tag?, htag]
  cases s.tag with
  | none => rfl
  | some t =>
    rw [Option.getD_some, Option.filter_some]
    by_cases ht : t = ""
    · simp [ht]
    · simp [ht]

theorem exists_of_bind_eq_ok
    {α β ε : Type} {x : Except ε α} {f : α → Except ε β} {b : β} (h : x >>= f = .ok b) :
    ∃ a, x = .ok a ∧ f a = .ok b := by
  cases x with
  | error e => cases h
  | ok a => exact ⟨a, rfl, h⟩

namespace Config

theorem ofSettings_eq_ok
    {s : Settings} {c : Config} (hc : ofSettings s = .ok c) :
    c.headerName = s.headerName ∧ c.copiedHeaders = s.copiedHeaders ∧
      ∀ i, Scheme.build i (s.parts i) = .ok (c.scheme i) := by
  by_cases hname : Text.isToken s.headerName = true
  · cases hheaders : checkCopiedHeaders s.copiedHeaders with
    | error e =>
      rw [ofSettings_of_error hname hheaders] at hc
      cases hc
    | ok _ =>
      rw [ofSettings_of_headers hname hheaders] at hc
      obtain ⟨request, hrequest, hc⟩ := exists_of_bind_eq_ok hc
      obtain ⟨job, hjob, hc⟩ := exists_of_bind_eq_ok hc
      obtain ⟨thread, hthread, hc⟩ := exists_of_bind_eq_ok hc
      cases hc
      refine ⟨rfl, rfl, ?_⟩
      intro i
      cases i with
      | request => exact hrequest
      | job => exact hjob
      | thread => exact hthread
  · rw [ofSettings, dif_neg hname] at hc
    cases hc

theorem realizes_of_ofSettings
    {s : Settings} {c : Config} (hc : ofSettings s = .ok c) :
    c.Realizes s := by
  obtain ⟨hname, hheaders, hschemes⟩ := ofSettings_eq_ok hc
  exact ⟨hname, hheaders, fun i => Scheme.build_realizes (hschemes i)⟩

/-- Settings are accepted exactly if they are valid.  Either all rules hold, and the configuration
that was requested is there and reported in the log once; or there is a first rule that does not
hold, the result is its fault, and nothing is written. -/
theorem load_accepts
    (s : Settings) (f : Facilities) :
    ((∃ c, (load s f).1 = .ok c) ↔ s.Valid) ∧
      ((∃ c, c.Realizes s ∧
          load s f = (.ok c, f.emit ⟨.debug, "trace configuration loaded",
            [("header", .text c.headerName),
              ("additional_headers", .number c.copiedHeaders.length)]⟩)) ∨
        ∃ r : Rule, r.IsFirstViolated s.rules ∧
          load s f = (.error (.configuration r.fault), f)) := by
  have hreports := ofSettings_reports s
  have hhead := s.head?_violations
  rcases Rule.violations_cases s.rules with ⟨hall, hnil⟩ | ⟨r, hfirst, hfault⟩
  · rw [hnil, List.head?_nil, eq_comm, List.head?_eq_none_iff] at hhead
    obtain ⟨c, hc⟩ := hreports.ok_iff.2 hhead
    have hload : load s f = (.ok c, f.emit c.loadedEvent) := by
      rw [load, hc]
    constructor
    · constructor
      · intro _
        exact s.forall_rules_iff.1 hall
      · intro _
        exact ⟨c, by rw [hload]⟩
    · left
      exact ⟨c, realizes_of_ofSettings hc, hload⟩
  · rw [hfault, eq_comm, ← hreports.error_iff] at hhead
    have hload : load s f = (.error (.configuration r.fault), f) := by
      rw [load, hhead]
    constructor
    · constructor
      · rintro ⟨c, hc⟩
        rw [hload] at hc
        cases hc
      · intro hvalid
        exact absurd (s.forall_rules_iff.2 hvalid) hfirst.not_forall
    · right
      exact ⟨r, hfirst, hload⟩

/-- A tag is compared with the default length where none is requested. -/
example : ofSettings { request := { tag := some "abcdef" } } =
    .error (.tagTooLong .request "abcdef" 6) := by
  rfl

end Config
end TraceLineage
