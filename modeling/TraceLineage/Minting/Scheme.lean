import TraceLineage.Fault

/-!
# Schemes

How the ids of one kind of execution unit are made: every segment starts with the tag of its scheme
and has a fixed length, and a delimiter separates it from the parent.  A value of `Scheme i`
satisfies every rule by construction; `Scheme.build` checks raw parts in a fixed order and reports
the first violated rule.
-/

namespace TraceLineage

/-- The parts of a scheme as they are requested, each of them optional: the tag that every segment
starts with, the delimiter between a parent and a segment, and the length of a segment in bytes, its
tag included. -/
structure SchemeParts where
  tag : Option String := none
  delimiter : Option Char := none
  length : Option Nat := none
  deriving DecidableEq, Repr

/-- A valid way to make the ids of an invoker.  The tag may be empty, a root has no delimiter, and
the length of a segment in bytes includes its tag. -/
structure Scheme (invoker : Invoker) where
  tag : String
  delimiter : Option Char
  length : Nat
  min_le_length : invoker.minLength ≤ length
  length_le_max : length ≤ invoker.maxLength
  tag_visible : Text.allVisible tag = true
  tag_lt_length : tag.utf8ByteSize < length
  delimiter_isSome : delimiter.isSome = !invoker.isRoot
  delimiter_visible : delimiter.all Text.isVisible = true
  deriving DecidableEq

namespace Scheme

variable {i : Invoker}

/-- The delimiter to use, or the first rule that the requested one violates. -/
def chooseDelimiter (i : Invoker) (requested : Option Char) :
    Except ConfigFault
      { d : Option Char // d.isSome = (!i.isRoot) ∧ d.all Text.isVisible = true } :=
  if hr : i.isRoot = true then
    match requested with
    | none => .ok ⟨none, by simp [hr], rfl⟩
    | some d => .error (.delimiterOfRoot i d)
  else
    let d := requested.getD Invoker.defaultDelimiter
    if hv : Text.isVisible d = true then .ok ⟨some d, by simp [hr], by simp [hv]⟩
    else .error (.delimiterNotVisible i d)

/-- The scheme of the requested parts, or the first violated rule in the order length, characters of
the tag, length of the tag, delimiter. -/
def build (i : Invoker) (s : SchemeParts) : Except ConfigFault (Scheme i) :=
  let length := s.length.getD i.defaultLength
  let tag := s.tag.getD ""
  if hl : i.minLength ≤ length ∧ length ≤ i.maxLength then
    if hv : Text.allVisible tag = true then
      if hs : tag.utf8ByteSize < length then
        match chooseDelimiter i s.delimiter with
        | .ok d => .ok ⟨tag, d.val, length, hl.1, hl.2, hv, hs, d.property.1, d.property.2⟩
        | .error e => .error e
      else .error (.tagTooLong i tag length)
    else .error (.tagNotVisible i tag)
  else .error (.lengthOutOfRange i length)

/-- The scheme used where nothing is requested. -/
def standard (i : Invoker) : Scheme i where
  tag := ""
  delimiter := if i.isRoot then none else some Invoker.defaultDelimiter
  length := i.defaultLength
  min_le_length := i.defaultLength_mem.1
  length_le_max := i.defaultLength_mem.2
  tag_visible := rfl
  tag_lt_length := by cases i <;> decide
  delimiter_isSome := by cases i <;> rfl
  delimiter_visible := by cases i <;> rfl

/-- The delimiter, which a root does not have. -/
def delimiter? (g : Scheme i) : Except Fault Char :=
  match g.delimiter with
  | some d => .ok d
  | none => .error (.state (.rootDelimiter i))

/-- The number of random characters in a segment. -/
def randomLength (g : Scheme i) : Nat :=
  g.length - g.tag.utf8ByteSize

theorem randomLength_pos
    (g : Scheme i) :
    0 < g.randomLength :=
  Nat.sub_pos_of_lt g.tag_lt_length

theorem build_default
    (i : Invoker) :
    build i {} = .ok (standard i) := by
  cases i <;> rfl

end Scheme
end TraceLineage
