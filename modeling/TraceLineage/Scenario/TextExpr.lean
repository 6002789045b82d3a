import TraceLineage.Minting.Mint

/-!
# Texts that mention generated ids

Generated ids are random, so a scenario refers to them by number.  A text expression is a fixed text
or a reference: some generated id, shortened at its end, between two fixed texts.  A reference that
cuts into the random part of an id leaves an alias behind, so that the shortened form can be
recognised later.
-/

namespace TraceLineage
namespace Scenario

/-- A text that may depend on the ids generated so far: a fixed text, or the id of a number, counted
from one, without its last `cut` bytes, between two texts. -/
inductive TextExpr where
  | literal (s : String)
  | reference (number cut : Nat) (before after : String)
  deriving DecidableEq, Repr, Inhabited

/-- A shortened id that has been referred to: its number, counted from one, how many characters of
its random part are missing, and how many ids had been generated at that time. -/
structure Alias where
  number : Nat
  cut : Nat
  age : Nat
  deriving DecidableEq, Repr

/-- The characters of a text without its last `n` bytes. -/
def cutBytes (n : Nat) (s : String) : String :=
  let rec go : Nat → List Char → List Char
    | 0, cs => cs
    | _, [] => []
    | n + 1, c :: cs => go (n + 1 - c.utf8Size) cs
  String.ofList (go n s.toList.reverse).reverse

/-- The id of a number, counted from one. -/
def nthMint? (minted : List Mint) (number : Nat) : Option Mint :=
  if number = 0 then none else minted[number - 1]?

def TextExpr.eval (minted : List Mint) : TextExpr → String
  | literal s => s
  | reference number cut before after =>
    match nthMint? minted number with
    | none => before ++ after
    | some m => before ++ cutBytes cut m.id.text ++ after

/-- The alias that evaluating an expression leaves behind. -/
def TextExpr.alias? (minted : List Mint) : TextExpr → Option Alias
  | literal _ => none
  | reference number cut _ _ =>
    match nthMint? minted number with
    | none => none
    | some m =>
      if 0 < cut ∧ cut < m.tail.utf8ByteSize then some ⟨number, cut, minted.length⟩ else none

end Scenario
end TraceLineage
