import TraceLineage.Toml.Reader

/-!
# Reading TOML: texts and keys

Texts come in four forms: between double quotes, where escapes are replaced, or between single
quotes, where they are not, each on one line or, with three quotes, on several.  A key is a sequence
of texts of the first two forms or of bare words, joined by dots.
-/

namespace TraceLineage
namespace Toml

/-- The character that an escape of one letter stands for. -/
def letterEscape? : Char → Option Char
  | 'b' => some '\x08'
  | 't' => some '\t'
  | 'n' => some '\n'
  | 'f' => some '\x0c'
  | 'r' => some '\r'
  | '"' => some '"'
  | '\\' => some '\\'
  | _ => none

/-- The character of a code point that is one. -/
def scalar? (n : Nat) : Option Char :=
  if n < 0xd800 ∨ (0xdfff < n ∧ n ≤ 0x10ffff) then some (Char.ofNat n) else none

/-- The character whose code point the next `n` digits write in base sixteen. -/
def codePoint (n : Nat) (cs : List Char) : Option (Char × List Char) :=
  let ds := cs.take n
  if ds.length = n ∧ ds.all (isDigitOf 16) = true then
    (scalar? (ofDigits 16 ds)).map fun c => (c, cs.drop n)
  else none

/-- The character that an escape stands for, read behind the backslash. -/
def escape : Reader Char
  | 'u' :: r => codePoint 4 r
  | 'U' :: r => codePoint 8 r
  | c :: r => (letterEscape? c).map fun d => (d, r)
  | [] => none

/-- The rest behind a line break that a backslash removes, together with all white space that
follows; read behind the backslash. -/
def escapedBreak? (cs : List Char) : Option (List Char) :=
  (lineBreak? (skipBlanks cs)).map fun r =>
    let rec skip : Nat → List Char → List Char
      | 0, cs => cs
      | fuel + 1, cs =>
        match lineBreak? (skipBlanks cs) with
        | some r => skip fuel r
        | none => skipBlanks cs
    skip (r.length + 1) r

/-- The rest of a text between double quotes on one line. -/
def basicTail : Nat → List Char → Reader String
  | 0, _, _ => none
  | _ + 1, acc, '"' :: r => some (String.ofList acc.reverse, r)
  | fuel + 1, acc, '\\' :: r => do
    let (c, r) ← escape r
    basicTail fuel (c :: acc) r
  | fuel + 1, acc, c :: r => if isBasicChar c then basicTail fuel (c :: acc) r else none
  | _ + 1, _, [] => none

/-- The rest of a text between single quotes on one line. -/
def literalTail (cs : List Char) : Option (String × List Char) :=
  match cs.dropWhile isLiteralChar with
  | '\'' :: r => some (String.ofList (cs.takeWhile isLiteralChar), r)
  | _ => none

/-- The rest of a text of several lines; `quote` is its quotation mark.  Up to two quotation marks
may stand anywhere, in front of the closing ones too. -/
def multilineTail (quote : Char) (escapes : Bool) : Nat → List Char → Reader String
  | 0, _, _ => none
  | fuel + 1, acc, cs =>
    let marks := (cs.takeWhile (· = quote)).length
    if 3 ≤ marks then
      let extra := min (marks - 3) 2
      some (String.ofList (List.replicate extra quote ++ acc).reverse, cs.drop (extra + 3))
    else
      match lineBreak? cs with
      | some r => multilineTail quote escapes fuel ('\n' :: acc) r
      | none =>
        match cs with
        | [] => none
        | c :: r =>
          if escapes && c = '\\' then
            match escapedBreak? r with
            | some r => multilineTail quote escapes fuel acc r
            | none => do
              let (d, r) ← escape r
              multilineTail quote escapes fuel (d :: acc) r
          else if isCommentChar c then multilineTail quote escapes fuel (c :: acc) r
          else none

/-- The text behind three quotation marks; a line break right behind them does not count. -/
def multiline (quote : Char) (escapes : Bool) (cs : List Char) : Option (String × List Char) :=
  let r := (lineBreak? cs).getD cs
  multilineTail quote escapes (r.length + 1) [] r

def lineText : Reader String
  | '"' :: r => basicTail (r.length + 1) [] r
  | '\'' :: r => literalTail r
  | _ => none

def text : Reader String
  | '"' :: '"' :: '"' :: r => multiline '"' true r
  | '\'' :: '\'' :: '\'' :: r => multiline '\'' false r
  | cs => lineText cs

def keyPart (cs : List Char) : Option (String × List Char) :=
  match cs with
  | '"' :: _ | '\'' :: _ => lineText cs
  | _ =>
    match cs.takeWhile isBareKeyChar with
    | [] => none
    | ks => some (String.ofList ks, cs.dropWhile isBareKeyChar)

/-- Further parts of a key, each behind a dot. -/
def keyTail : Nat → Reader (List String)
  | 0, _ => none
  | fuel + 1, cs =>
    match skipBlanks cs with
    | '.' :: r => do
      let (k, r) ← keyPart (skipBlanks r)
      let (ks, r) ← keyTail fuel r
      some (k :: ks, r)
    | r => some ([], r)

/-- The greatest number of parts of a key. -/
def maxKeyParts : Nat := 79

def key (cs : List Char) : Option (List String × List Char) := do
  let (k, r) ← keyPart (skipBlanks cs)
  let (ks, r) ← keyTail (r.length + 1) r
  if ks.length < maxKeyParts then some (k :: ks, r) else none

end Toml
end TraceLineage
