import TraceLineage.Proofs.Http.OneId
import TraceLineage.Proofs.Minting.Composition
import TraceLineage.Proofs.Text.Inbound

/-!
# Header names

Header names are checked twice.  A configuration looks at the characters of a name and sets no limit
to its length; the HTTP layer looks at its bytes, of which it takes 65535 at most.  Both accept the
same names up to this length, so that a configuration with a longer name is the only one that has no
layer.  A layer reads and writes its header under the name in lower case, in whatever letter case
the name is configured.
-/

namespace TraceLineage
namespace Http

/-- The bytes of token characters: digits, letters and fifteen marks. -/
def IsTokenByte (b : UInt8) : Prop :=
  0x30 ≤ b.toNat ∧ b.toNat ≤ 0x39 ∨ 0x41 ≤ b.toNat ∧ b.toNat ≤ 0x5a ∨
    0x61 ≤ b.toNat ∧ b.toNat ≤ 0x7a ∨
    b.toNat ∈ [0x21, 0x23, 0x24, 0x25, 0x26, 0x27, 0x2a, 0x2b, 0x2d, 0x2e, 0x5e, 0x5f, 0x60, 0x7c,
      0x7e]

instance (b : UInt8) : Decidable (IsTokenByte b) :=
  inferInstanceAs (Decidable (_ ∨ _))

/-- The byte of the small letter for that of a capital one, and every other byte itself. -/
def lowerByte (b : UInt8) : UInt8 :=
  if 0x41 ≤ b.toNat ∧ b.toNat ≤ 0x5a then b + 0x20 else b

theorem IsTokenByte.toNat_le
    {b : UInt8} (hb : IsTokenByte b) :
    b.toNat ≤ 0x7e := by
  simp only [IsTokenByte, List.mem_cons, List.not_mem_nil, or_false] at hb
  omega

/-! ## Names by their bytes -/

theorem forall_byte
    {p : UInt8 → Bool} (hp : ((List.range 256).all fun n => p (UInt8.ofNat n)) = true) (b : UInt8) :
    p b = true := by
  have hb := List.all_eq_true.1 hp b.toNat (List.mem_range.2 b.toNat_lt)
  rwa [UInt8.ofNat_toNat] at hb

theorem tokenByte?_eq
    (b : UInt8) :
    tokenByte? b = if IsTokenByte b then some (Char.ofNat (lowerByte b).toNat) else none := by
  have hall := forall_byte (p := fun b => decide (tokenByte? b =
    if IsTokenByte b then some (Char.ofNat (lowerByte b).toNat) else none)) (by decide +kernel) b
  exact of_decide_eq_true hall

theorem utf8EncodeChar_lowerByte
    {b : UInt8} (hb : IsTokenByte b) :
    String.utf8EncodeChar (Char.ofNat (lowerByte b).toNat) = [lowerByte b] := by
  have hall := forall_byte (p := fun b => decide (IsTokenByte b →
    String.utf8EncodeChar (Char.ofNat (lowerByte b).toNat) = [lowerByte b])) (by decide +kernel) b
  exact of_decide_eq_true hall hb

theorem mapM_tokenByte?_eq_some_iff
    (bs : List UInt8) (cs : List Char) :
    bs.mapM tokenByte? = some cs ↔
      (∀ b ∈ bs, IsTokenByte b) ∧ cs = bs.map fun b => Char.ofNat (lowerByte b).toNat := by
  induction bs generalizing cs with
  | nil => simp [eq_comm]
  | cons b bs ih =>
    rw [List.mapM_cons, tokenByte?_eq, List.forall_mem_cons, List.map_cons]
    by_cases hb : IsTokenByte b
    · rw [if_pos hb, Option.bind_eq_bind, Option.bind_some]
      constructor
      · intro h
        obtain ⟨ds, hds, h⟩ := Option.bind_eq_some_iff.1 h
        cases h
        obtain ⟨hbs, rfl⟩ := (ih ds).1 hds
        exact ⟨⟨hb, hbs⟩, rfl⟩
      · rintro ⟨⟨-, hbs⟩, rfl⟩
        rw [(ih _).2 ⟨hbs, rfl⟩]
        rfl
    · rw [if_neg hb]
      constructor
      · intro h
        cases h
      · rintro ⟨⟨hpos, -⟩, -⟩
        exact absurd hpos hb

theorem utf8Bytes_injective
    {s t : String} (h : utf8Bytes s = utf8Bytes t) :
    s = t := by
  rw [utf8Bytes, utf8Bytes, ← Text.data_toUTF8, ← Text.data_toUTF8, Array.toList_inj] at h
  exact String.toByteArray_inj.1 (ByteArray.ext h)

theorem length_utf8Bytes
    (s : String) :
    (utf8Bytes s).length = s.utf8ByteSize := by
  rw [utf8Bytes, ← Text.data_toUTF8]
  rfl

theorem utf8Bytes_ofList
    (cs : List Char) :
    utf8Bytes (String.ofList cs) = cs.flatMap String.utf8EncodeChar := by
  rw [utf8Bytes, String.toList_ofList]

namespace HeaderName

/-- What is assumed of a reader of header names: it accepts 1 to 65535 bytes if all of them are
token bytes, and nothing else, and it makes the capital letters small. -/
def IsReader (read : List UInt8 → Option HeaderName) : Prop :=
  ∀ bs n, read bs = some n ↔
    (1 ≤ bs.length ∧ bs.length ≤ maxNameLength ∧ ∀ b ∈ bs, IsTokenByte b) ∧
      utf8Bytes n.text = bs.map lowerByte

theorem isReader_ofBytes? :
    IsReader ofBytes? := by
  intro bs n
  have hbytes : (∀ b ∈ bs, IsTokenByte b) →
      utf8Bytes (String.ofList (bs.map fun b => Char.ofNat (lowerByte b).toNat)) =
        bs.map lowerByte := by
    intro hbs
    rw [utf8Bytes_ofList, List.flatMap_map, List.map_eq_flatMap]
    exact List.flatMap_congr fun b hb => utf8EncodeChar_lowerByte (hbs b hb)
  rw [ofBytes?, Option.ite_none_right_eq_some, Option.map_eq_some_iff]
  constructor
  · rintro ⟨⟨hpos, hle⟩, cs, hcs, rfl⟩
    obtain ⟨hbs, rfl⟩ := (mapM_tokenByte?_eq_some_iff bs cs).1 hcs
    exact ⟨⟨hpos, hle, hbs⟩, hbytes hbs⟩
  · rintro ⟨⟨hpos, hle, hbs⟩, hn⟩
    refine ⟨⟨hpos, hle⟩, _, (mapM_tokenByte?_eq_some_iff bs _).2 ⟨hbs, rfl⟩, ?_⟩
    rw [utf8Bytes_injective ((hbytes hbs).trans hn.symm)]

/-- There is no other reader. -/
theorem IsReader.eq_ofBytes?
    {read : List UInt8 → Option HeaderName} (hread : IsReader read) :
    read = ofBytes? := by
  funext bs
  exact Option.ext fun n => (hread bs n).trans (isReader_ofBytes? bs n).symm

end HeaderName
end Http

/-! ## Names by their characters -/

namespace Text

open Http

theorem forall_ascii
    {p : Char → Bool} (hp : ((List.range 128).all fun n => p (Char.ofNat n)) = true) {c : Char}
    (hc : c.toNat < 128) :
    p c = true := by
  have hn := List.all_eq_true.1 hp c.toNat (List.mem_range.2 hc)
  rwa [Char.ofNat_toNat] at hn

theorem toNat_lt_of_isTokenChar
    {c : Char} (hc : isTokenChar c = true) :
    c.toNat < 128 := by
  have hmarks : (tokenMarks.all fun c => c.toNat < 128) = true := by decide +kernel
  rw [isTokenChar, Bool.or_eq_true, isAlphanum_iff, List.contains_iff_mem] at hc
  rcases hc with hc | hc
  · omega
  · exact of_decide_eq_true (List.all_eq_true.1 hmarks c hc)

/-- A character belongs to a token exactly if all its bytes do. -/
theorem isTokenChar_iff_bytes
    (c : Char) :
    isTokenChar c = true ↔ ∀ b ∈ String.utf8EncodeChar c, IsTokenByte b := by
  by_cases hascii : c.val.toNat ≤ 127
  · have hall := forall_ascii (p := fun c => decide (isTokenChar c = true ↔
      ∀ b ∈ String.utf8EncodeChar c, IsTokenByte b)) (by decide +kernel)
      (Nat.lt_succ_of_le hascii)
    exact of_decide_eq_true hall
  · constructor
    · intro hc
      exact absurd (Nat.le_of_lt_succ (toNat_lt_of_isTokenChar hc)) hascii
    · intro hbytes
      obtain ⟨b, hb, hbeyond⟩ := exists_mem_utf8EncodeChar (Nat.lt_of_not_le hascii)
      have hle := (hbytes b hb).toNat_le
      omega

theorem isToken_iff_bytes
    (s : String) :
    isToken s = true ↔ 1 ≤ s.utf8ByteSize ∧ ∀ b ∈ utf8Bytes s, IsTokenByte b := by
  have hne : s ≠ "" ↔ 1 ≤ s.utf8ByteSize := by
    rw [ne_eq, ← String.utf8ByteSize_eq_zero_iff]
    omega
  rw [isToken, Bool.and_eq_true, decide_eq_true_eq, hne, List.all_eq_true, utf8Bytes]
  simp only [isTokenChar_iff_bytes, List.forall_mem_flatMap]

/-! ### Letter case -/

theorem toList_toLower
    (s : String) :
    s.toLower.toList = s.toList.map Char.toLower :=
  String.toList_map

theorem isTokenChar_toLower
    (c : Char) :
    isTokenChar c.toLower = isTokenChar c := by
  by_cases hascii : c.toNat < 128
  · have hall := forall_ascii (p := fun c => isTokenChar c.toLower == isTokenChar c)
      (by decide +kernel) hascii
    exact eq_of_beq hall
  · have hcapital : ¬(c.val ≥ 'A'.val ∧ c.val ≤ 'Z'.val) := by
      rintro ⟨-, hle⟩
      exact hascii (Nat.lt_of_le_of_lt (UInt32.le_iff_toNat_le.1 hle) (by decide))
    have hsame : c.toLower = c := dif_neg hcapital
    rw [hsame]

theorem isToken_toLower
    (s : String) :
    isToken s.toLower = isToken s := by
  have hempty : s.toLower = "" ↔ s = "" := by
    rw [← String.toList_eq_nil_iff, ← String.toList_eq_nil_iff, toList_toLower, List.map_eq_nil_iff]
  have hchars : (isTokenChar ∘ Char.toLower) = isTokenChar := funext isTokenChar_toLower
  simp only [isToken, ne_eq, hempty, toList_toLower, List.all_map, hchars]

theorem utf8Bytes_toLower
    {s : String} (hs : isToken s = true) :
    utf8Bytes s.toLower = (utf8Bytes s).map lowerByte := by
  rw [isToken, Bool.and_eq_true, List.all_eq_true] at hs
  rw [utf8Bytes, utf8Bytes, toList_toLower, List.flatMap_map, List.map_flatMap]
  refine List.flatMap_congr fun c hc => ?_
  have hall := forall_ascii (p := fun c => decide (String.utf8EncodeChar c.toLower =
    (String.utf8EncodeChar c).map lowerByte)) (by decide +kernel)
    (toNat_lt_of_isTokenChar (hs.2 c hc))
  exact of_decide_eq_true hall

theorem utf8ByteSize_toLower
    {s : String} (hs : isToken s = true) :
    s.toLower.utf8ByteSize = s.utf8ByteSize := by
  rw [← length_utf8Bytes, utf8Bytes_toLower hs, List.length_map, length_utf8Bytes]

end Text

namespace Http
namespace HeaderName

/-- A text is a header name if it is a token of no more than 65535 bytes, which is then kept in
lower case. -/
theorem ofString?_eq_some_iff
    (s : String) (n : HeaderName) :
    ofString? s = some n ↔
      (Text.isToken s = true ∧ s.utf8ByteSize ≤ maxNameLength) ∧ n.text = s.toLower := by
  rw [ofString?, isReader_ofBytes?, length_utf8Bytes, and_left_comm, ← Text.isToken_iff_bytes,
    and_comm (a := s.utf8ByteSize ≤ maxNameLength)]
  refine and_congr_right fun hs => ?_
  rw [← Text.utf8Bytes_toLower hs.1]
  exact ⟨utf8Bytes_injective, congrArg utf8Bytes⟩

theorem ofString?_congr
    {s t : String} (h : s.toLower = t.toLower) :
    ofString? s = ofString? t := by
  have htoken : Text.isToken s = Text.isToken t := by
    rw [← Text.isToken_toLower s, h, Text.isToken_toLower t]
  refine Option.ext fun n => ?_
  rw [ofString?_eq_some_iff, ofString?_eq_some_iff, h, htoken]
  refine and_congr_left fun _ => and_congr_right fun ht => ?_
  rw [← Text.utf8ByteSize_toLower (htoken.trans ht), h, Text.utf8ByteSize_toLower ht]

end HeaderName

namespace HeaderMap

theorem lookup_congr
    (m : HeaderMap) {s t : String} (h : s.toLower = t.toLower) :
    m.lookup s = m.lookup t := by
  rw [lookup, lookup, HeaderName.ofString?_congr h]

end HeaderMap

theorem checkHeaderName_eq_ok_iff
    (name : String) :
    checkHeaderName name = .ok () ↔ Text.isToken name = true := by
  by_cases ht : Text.isToken name = true <;> simp [checkHeaderName, ht]

theorem setHeaderName_of_isToken
    (c : Config) {name : String} (hvalid : Text.isToken name = true) :
    c.setHeaderName name = .ok { c with headerName := name, headerName_valid := hvalid } :=
  dif_pos hvalid

namespace Layer

/-- The length of its header name decides whether a configuration has a layer. -/
theorem ofConfig_eq_ok_iff
    (c : Config) (l : Layer) :
    ofConfig c = .ok l ↔
      c.headerName.utf8ByteSize ≤ maxNameLength ∧ l = ⟨c, ⟨c.headerName.toLower⟩, {}⟩ := by
  have hname : ∀ n, HeaderName.ofString? c.headerName = some n ↔
      c.headerName.utf8ByteSize ≤ maxNameLength ∧ n = ⟨c.headerName.toLower⟩ := by
    intro n
    rw [HeaderName.ofString?_eq_some_iff, HeaderName.mk.injEq]
    exact and_congr_left' (and_iff_right c.headerName_valid)
  rw [ofConfig]
  constructor
  · intro hl
    split at hl
    · rename_i n hn
      cases hl
      obtain ⟨hle, rfl⟩ := (hname n).1 hn
      exact ⟨hle, rfl⟩
    · cases hl
  · rintro ⟨hle, rfl⟩
    rw [(hname _).2 ⟨hle, rfl⟩]

/-- A layer uses a header name, with whatever options: the resolution with which its call begins,
and after which it goes on with the request, reads the first value under this name, if that is
text; and its response is that of the service in the context of the request, in which the layer
puts the id in place of all values under this name, unless that is switched off, and leaves the
other headers as they are. -/
def Uses (l : Layer) (n : HeaderName) : Prop :=
  ∀ (o : Options) (σ β : Type) [Inhabited β] (r : Request β) (w : World σ), ∃ id ctx v,
    w.perform (.resolveIn l.config (.request ((r.headers.first? n).bind HeaderValue.text?))
      (Arrival.initialContext l.config r.headers.lookup)) = ((.ok id, ctx), v) ∧
    (∀ (H : Type → Type) (ε : Type) (h : Handler H σ) (s : Service H β ε),
      (∀ through, (((l.setOptions o).around s).call r).drive h through w =
        ((l.setOptions o).calling s { r with traceId := some id } ⟨ctx, id⟩).drive h through v) ∧
      ∀ path p, Prog.Relays (Except.map ((l.setOptions o).finish id)) (response s path ctx p)
        (((l.setOptions o).around s).respond (Begun.serving ⟨ctx, id⟩ path p))) ∧
    ∀ q : Response β,
      (∀ m, m ≠ n → ((l.setOptions o).finish id q).headers.values m = q.headers.values m) ∧
      (o.responseHeader = true →
        ((l.setOptions o).finish id q).headers.values n = [.ofText id.text]) ∧
      (o.responseHeader = false → (l.setOptions o).finish id q = q)

/-- Every layer uses the header whose name it keeps. -/
theorem Built.uses
    {l : Layer} (hl : l.Built) :
    l.Uses l.header := by
  intro o σ β _ r w
  have hlookup : Arrival.boundary l.config r.headers.lookup =
      .request ((r.headers.first? l.header).bind HeaderValue.text?) := by
    rw [Arrival.boundary, HeaderMap.lookup, hl.header, Option.bind_some]
  obtain ⟨id, ctx, g, hbegin, -, hvisible⟩ := (l.setOptions o).perform_beginning r w
  refine ⟨id, ctx, { w with facilities := g }, ?_, ?_, ?_⟩
  · rw [← hlookup]
    exact hbegin
  · intro H ε h s
    constructor
    · intro through
      exact ((l.setOptions o).drive_call s r hbegin through 0).1
    · intro path p
      exact (l.setOptions o).relays_respond s ⟨ctx, id⟩ path p
  · intro q
    exact ((l.setOptions o).finish_spec hvisible q).2.2

/-- A layer does the same if its header name is configured in another letter case. -/
theorem drive_call_congr
    {H : Type → Type} {σ β ε : Type} [Inhabited β] (l : Layer) {name : String}
    (hvalid : Text.isToken name = true) (hname : name.toLower = l.config.headerName.toLower)
    (h : Handler H σ) (s : Service H β ε) (r : Request β) (through : Bool) (w : World σ) :
    let l' := { l with config.headerName := name, config.headerName_valid := hvalid }
    ((l'.around s).call r).drive h through w = ((l.around s).call r).drive h through w := by
  intro l'
  have hboundary : Arrival.boundary l'.config r.headers.lookup =
      Arrival.boundary l.config r.headers.lookup :=
    congrArg Boundary.request (r.headers.lookup_congr hname)
  -- the name is read at the boundary only: the resolution itself depends on the schemes
  have hbeginning : w.perform (l'.beginning r) = w.perform (l.beginning r) := by
    rw [beginning, hboundary]
    rfl
  obtain ⟨id, ctx, g, hbegin, -⟩ := l.perform_beginning r w
  have hdrive := (l.drive_call s r hbegin (h := h) through 0).1
  have hdrive' := (l'.drive_call s r (hbeginning.trans hbegin) (h := h) through 0).1
  -- and what follows depends on the header and the options
  exact hdrive'.trans hdrive.symm

/-- A header name that a layer accepts may be replaced by itself in another letter case, without a
difference to what the layer does. -/
theorem exists_setHeaderName_of_toLower_eq
    {c : Config} {l : Layer} (hl : ofConfig c = .ok l) {name : String}
    (hname : name.toLower = c.headerName.toLower) :
    ∃ d l', c.setHeaderName name = .ok d ∧ ofConfig d = .ok l' ∧ l'.header = l.header ∧
      ∀ (o : Options) (H : Type → Type) (β ε : Type) [Inhabited β] (s : Service H β ε),
        (∀ (σ : Type) (h : Handler H σ) (r : Request β) (through : Bool) (w : World σ),
          (((l'.setOptions o).around s).call r).drive h through w =
            (((l.setOptions o).around s).call r).drive h through w) ∧
        ((l'.setOptions o).around s).respond = ((l.setOptions o).around s).respond := by
  obtain ⟨hle, rfl⟩ := (ofConfig_eq_ok_iff c l).1 hl
  have hvalid : Text.isToken name = true := by
    rw [← Text.isToken_toLower, hname, Text.isToken_toLower, c.headerName_valid]
  have hsize : name.utf8ByteSize = c.headerName.utf8ByteSize := by
    rw [← Text.utf8ByteSize_toLower hvalid, hname, Text.utf8ByteSize_toLower c.headerName_valid]
  let d : Config := { c with headerName := name, headerName_valid := hvalid }
  let l' : Layer := ⟨d, ⟨c.headerName.toLower⟩, {}⟩
  have hl' : ofConfig d = .ok l' := by
    rw [ofConfig_eq_ok_iff, hname]
    exact ⟨hsize.trans_le hle, rfl⟩
  refine ⟨d, l', setHeaderName_of_isToken c hvalid, hl', rfl, ?_⟩
  intro o H β ε _ s
  constructor
  · intro σ h r through w
    exact drive_call_congr ⟨c, ⟨c.headerName.toLower⟩, o⟩ hvalid hname h s r through w
  · funext p
    cases p <;> rfl

/-- The check of a configuration and the reader of header names agree.  A name of no more than
65535 bytes passes the check exactly if its bytes are read.  So a configuration, in whatever way it
was obtained, has a layer exactly if its header name is no longer than that; and this layer uses
the name in lower case, for requests and for responses.  The name in another letter case passes the
check as well and leads to a layer that does the same. -/
theorem header_names_agree
    {read : List UInt8 → Option HeaderName} (hread : HeaderName.IsReader read) :
    (∀ name : String, name.utf8ByteSize ≤ 65535 →
      (checkHeaderName name = .ok () ↔ ∃ n, read (utf8Bytes name) = some n)) ∧
    ∀ c : Config,
      ((∃ l, ofConfig c = .ok l) ↔ c.headerName.utf8ByteSize ≤ 65535) ∧
      ∀ l, ofConfig c = .ok l →
        l.config = c ∧ read (utf8Bytes c.headerName) = some l.header ∧
        l.header.text = c.headerName.toLower ∧ l.Uses l.header ∧
        ∀ name : String, name.toLower = c.headerName.toLower →
          ∃ d l', c.setHeaderName name = .ok d ∧ ofConfig d = .ok l' ∧ l'.header = l.header ∧
            ∀ (o : Options) (H : Type → Type) (β ε : Type) [Inhabited β] (s : Service H β ε),
              (∀ (σ : Type) (h : Handler H σ) (r : Request β) (through : Bool) (w : World σ),
                (((l'.setOptions o).around s).call r).drive h through w =
                  (((l.setOptions o).around s).call r).drive h through w) ∧
              ((l'.setOptions o).around s).respond = ((l.setOptions o).around s).respond := by
  obtain rfl := hread.eq_ofBytes?
  refine ⟨?_, fun c => ⟨?_, ?_⟩⟩
  · intro name hle
    rw [checkHeaderName_eq_ok_iff]
    constructor
    · intro ht
      exact ⟨⟨name.toLower⟩, (HeaderName.ofString?_eq_some_iff _ _).2 ⟨⟨ht, hle⟩, rfl⟩⟩
    · rintro ⟨n, hn⟩
      exact ((HeaderName.ofString?_eq_some_iff _ _).1 hn).1.1
  · constructor
    · rintro ⟨l, hl⟩
      exact ((ofConfig_eq_ok_iff c l).1 hl).1
    · intro hle
      exact ⟨_, (ofConfig_eq_ok_iff c _).2 ⟨hle, rfl⟩⟩
  · intro l hl
    have hbuilt : l.Built := .ofConfig hl
    obtain ⟨-, rfl⟩ := (ofConfig_eq_ok_iff c l).1 hl
    refine ⟨rfl, hbuilt.header, rfl, hbuilt.uses, ?_⟩
    intro name
    exact exists_setHeaderName_of_toLower_eq hl

/-- A name of 65536 letters passes the check, but has no layer; a name with capital letters has one,
which uses it in lower case and whose header is that of the name in other letter case. -/
theorem header_names_agree_of_long_and_capital :
    (∃ c, Config.standard.setHeaderName (String.ofList (List.replicate 65536 'a')) = .ok c ∧
      ¬∃ l, ofConfig c = .ok l) ∧
    checkHeaderName "X Request" ≠ .ok () ∧
    ∃ c l, Config.standard.setHeaderName "X-Request" = .ok c ∧ ofConfig c = .ok l ∧
      l.header = ⟨"x-request"⟩ ∧ l.Uses ⟨"x-request"⟩ ∧
      ∃ d l', c.setHeaderName "x-REQUEST" = .ok d ∧ ofConfig d = .ok l' ∧
        l'.header = ⟨"x-request"⟩ := by
  obtain ⟨hcheck, hlayers⟩ := header_names_agree HeaderName.isReader_ofBytes?
  have hletters : ∀ k, k ≠ 0 → let name := String.ofList (List.replicate k 'a')
      Text.isToken name = true ∧ name.utf8ByteSize = k := by
    intro k hk name
    have hvisible : (List.replicate k 'a').all Text.isVisible = true := by
      rw [List.all_replicate, if_neg hk]
      decide
    have hsize : name.utf8ByteSize = k :=
      (Text.utf8ByteSize_ofList _ hvisible).trans List.length_replicate
    refine ⟨?_, hsize⟩
    rw [Text.isToken, Bool.and_eq_true, decide_eq_true_eq, String.toList_ofList, List.all_replicate,
      if_neg hk]
    refine ⟨?_, by decide⟩
    intro hempty
    rw [hempty] at hsize
    exact hk hsize.symm
  refine ⟨?_, ?_, ?_⟩
  · obtain ⟨htoken, hsize⟩ := hletters 65536 (by decide)
    refine ⟨_, setHeaderName_of_isToken _ htoken, ?_⟩
    rw [(hlayers _).1, hsize]
    decide
  · intro hok
    obtain ⟨n, hn⟩ := (hcheck "X Request" (by decide +kernel)).1 hok
    have hnone : HeaderName.ofBytes? (utf8Bytes "X Request") = none := by decide +kernel
    cases hnone.symm.trans hn
  · have htoken : Text.isToken "X-Request" = true := by decide +kernel
    have hlower : "X-Request".toLower = "x-request" := by
      rw [← String.toList_inj, Text.toList_toLower]
      decide +kernel
    have hrecased : "x-REQUEST".toLower = "X-Request".toLower := by
      rw [← String.toList_inj, Text.toList_toLower, Text.toList_toLower]
      decide +kernel
    have hsize : "X-Request".utf8ByteSize ≤ 65535 := by decide +kernel
    obtain ⟨c, hc, hname⟩ : ∃ c, Config.standard.setHeaderName "X-Request" = .ok c ∧
        c.headerName = "X-Request" :=
      ⟨_, setHeaderName_of_isToken _ htoken, rfl⟩
    obtain ⟨hsome, hlayer⟩ := hlayers c
    rw [hname] at hsome hlayer
    obtain ⟨l, hl⟩ := hsome.2 hsize
    obtain ⟨-, -, htext, huses, hrenamed⟩ := hlayer l hl
    have hheader : l.header = ⟨"x-request"⟩ := by
      rw [← hlower, ← htext]
    obtain ⟨d, l', hd, hl', hsame, -⟩ := hrenamed "x-REQUEST" hrecased
    refine ⟨c, l, hc, hl, hheader, ?_, d, l', hd, hl', hsame.trans hheader⟩
    rw [← hheader]
    exact huses

end Layer
end Http
end TraceLineage
