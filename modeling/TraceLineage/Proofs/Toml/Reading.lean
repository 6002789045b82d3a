import TraceLineage.Proofs.Toml.Tree
import TraceLineage.Toml.Document

/-!
# What is read is a tree

Every document that can be read is a table, and no table in it has a key twice.  A table grows only
at keys that it does not have yet, or by a change below one of its keys; that is kept through every
line of the document and every inline table.
-/

namespace TraceLineage
namespace Toml

/-- No table below the node has a key twice. -/
inductive Node.DistinctKeys : Node → Prop where
  | value {v : Value} (distinct : v.DistinctKeys) : DistinctKeys (.value v)
  | table {origin : Origin} {es : List (String × Node)} (nodup : (es.map Prod.fst).Nodup)
      (nodes : ∀ e ∈ es, DistinctKeys e.2) : DistinctKeys (.table origin es)
  | tables {ts : List (List (String × Node))} (nodup : ∀ t ∈ ts, (t.map Prod.fst).Nodup)
      (nodes : ∀ t ∈ ts, ∀ e ∈ t, DistinctKeys e.2) : DistinctKeys (.tables ts)

namespace Entries

/-- No key occurs twice among the entries or in a table below them. -/
structure DistinctKeys (es : Entries) : Prop where
  nodup : (es.map Prod.fst).Nodup
  nodes : ∀ e ∈ es, e.2.DistinctKeys

theorem distinctKeys_nil : DistinctKeys [] :=
  ⟨List.nodup_nil, fun _ he => absurd he List.not_mem_nil⟩

variable {es fs root : Entries} {k : String} {n : Node} {path : List String}

theorem DistinctKeys.node
    (h : es.DistinctKeys) (hn : es.lookup k = some n) :
    n.DistinctKeys := by
  rw [lookup_eq_some_iff_mem h.nodup] at hn
  exact h.nodes _ hn

theorem DistinctKeys.of_table
    {origin : Origin} (h : (Node.table origin es).DistinctKeys) :
    es.DistinctKeys := by
  cases h with
  | table hnodup hnodes => exact ⟨hnodup, hnodes⟩

theorem DistinctKeys.toTable
    (h : es.DistinctKeys) (origin : Origin) :
    (Node.table origin es).DistinctKeys :=
  .table h.nodup h.nodes

theorem distinctKeys_tables_iff
    {ts : List Entries} :
    (Node.tables ts).DistinctKeys ↔ ∀ t ∈ ts, t.DistinctKeys := by
  constructor
  · intro h
    cases h with
    | tables hnodup hnodes => exact fun t ht => ⟨hnodup t ht, hnodes t ht⟩
  · intro h
    exact .tables (fun t ht => (h t ht).nodup) fun t ht => (h t ht).nodes

/-! ## Growing tables -/

theorem DistinctKeys.append
    (h : es.DistinctKeys) (hk : es.lookup k = none) (hn : n.DistinctKeys) :
    DistinctKeys (es ++ [(k, n)]) := by
  rw [List.lookup_eq_none_iff] at hk
  constructor
  · rw [List.map_append, List.map_cons, List.map_nil, List.nodup_append]
    refine ⟨h.nodup, List.nodup_singleton k, ?_⟩
    intro a ha b hb
    obtain ⟨e, he, rfl⟩ := List.mem_map.1 ha
    rw [List.mem_singleton.1 hb]
    exact (bne_iff_ne.1 (hk e he)).symm
  · intro e he
    rcases List.mem_append.1 he with he | he
    · exact h.nodes e he
    · rw [List.mem_singleton.1 he]
      exact hn

theorem mem_put
    {e : String × Node} (he : e ∈ put k n es) :
    e = (k, n) ∨ e ∈ es := by
  induction es with
  | nil => exact .inl (List.mem_singleton.1 he)
  | cons d ds ih =>
    rw [put] at he
    split at he
    · rcases List.mem_cons.1 he with he | he
      · exact .inl he
      · exact .inr (List.mem_cons_of_mem d he)
    · rcases List.mem_cons.1 he with he | he
      · exact .inr (he ▸ List.mem_cons_self)
      · exact (ih he).imp_right (List.mem_cons_of_mem d)

theorem DistinctKeys.put
    (h : es.DistinctKeys) (hn : n.DistinctKeys) :
    DistinctKeys (Entries.put k n es) := by
  constructor
  · have hnodup := h.nodup
    clear h
    induction es with
    | nil => exact List.nodup_singleton k
    | cons d ds ih =>
      rw [List.map_cons, List.nodup_cons] at hnodup
      rw [Entries.put]
      split
      · rename_i hd
        rw [List.map_cons, List.nodup_cons, ← hd]
        exact hnodup
      · rename_i hd
        rw [List.map_cons, List.nodup_cons]
        refine ⟨?_, ih hnodup.2⟩
        intro hmem
        obtain ⟨e, he, hkey⟩ := List.mem_map.1 hmem
        rcases mem_put he with rfl | he
        · exact hd hkey.symm
        · exact hnodup.1 (hkey ▸ List.mem_map_of_mem he)
  · intro e he
    rcases mem_put he with rfl | he
    · exact hn
    · exact h.nodes e he

theorem DistinctKeys.remove
    (h : es.DistinctKeys) (k : String) :
    (es.remove k).DistinctKeys :=
  ⟨(List.filter_sublist.map Prod.fst).nodup h.nodup,
    fun e he => h.nodes e (List.mem_of_mem_filter he)⟩

/-- A change below a path keeps the keys distinct if it does so where it takes place. -/
theorem DistinctKeys.descend
    {missing here : Origin} {change : Origin → Entries → Option Entries}
    (hchange : ∀ origin sub sub', sub.DistinctKeys → change origin sub = some sub' →
      sub'.DistinctKeys)
    (h : es.DistinctKeys) (hfs : es.descend missing change here path = some fs) :
    fs.DistinctKeys := by
  induction path generalizing es fs here with
  | nil => exact hchange here es fs h hfs
  | cons k ks ih =>
    rw [Entries.descend] at hfs
    split at hfs
    · obtain ⟨sub, hsub, hput⟩ := Option.bind_eq_some_iff.1 hfs
      cases hput
      exact h.put ((ih distinctKeys_nil hsub).toTable missing)
    · cases hfs
    · rename_i origin sub hlookup
      split at hfs
      · cases hfs
      · obtain ⟨sub', hsub, hput⟩ := Option.bind_eq_some_iff.1 hfs
        cases hput
        exact h.put ((ih (.of_table (h.node hlookup)) hsub).toTable origin)
    · cases hfs
    · rename_i t ts hlookup
      obtain ⟨t', ht, hput⟩ := Option.bind_eq_some_iff.1 hfs
      cases hput
      have hts := distinctKeys_tables_iff.1 (h.node hlookup)
      refine h.put (distinctKeys_tables_iff.2 (List.forall_mem_cons.2 ⟨?_, ?_⟩))
      · exact ih (hts t List.mem_cons_self) ht
      · exact fun u hu => hts u (List.mem_cons_of_mem t hu)

theorem DistinctKeys.addDotted
    {v : Value} (h : es.DistinctKeys) (hv : v.DistinctKeys)
    (hfs : es.addDotted path k v = some fs) :
    fs.DistinctKeys := by
  refine h.descend ?_ hfs
  intro origin sub sub' hsub hchange
  split at hchange
  · cases hchange
  · split at hchange
    · cases hchange
    · rename_i hlookup
      cases hchange
      exact hsub.append hlookup (.value hv)

theorem DistinctKeys.find
    (h : es.DistinctKeys) (hn : openTable.find k path es = some (some n)) :
    n.DistinctKeys := by
  induction path generalizing es with
  | nil => exact h.node (Option.some.inj hn)
  | cons p ps ih =>
    rw [openTable.find] at hn
    split at hn
    · cases hn
    · cases hn
    · rename_i hlookup
      exact ih (.of_table (h.node hlookup)) hn
    · cases hn
    · rename_i t ts hlookup
      exact ih (distinctKeys_tables_iff.1 (h.node hlookup) t List.mem_cons_self) hn

theorem DistinctKeys.openTable
    (h : root.DistinctKeys) (hopen : root.openTable path k = some (es, fs)) :
    es.DistinctKeys ∧ fs.DistinctKeys := by
  obtain ⟨target, htarget, hopen⟩ := Option.bind_eq_some_iff.1 hopen
  split at hopen
  · cases hopen
    exact ⟨distinctKeys_nil, h⟩
  · obtain ⟨root', hroot, hopen⟩ := Option.bind_eq_some_iff.1 hopen
    cases hopen
    refine ⟨.of_table (h.find htarget), h.descend ?_ hroot⟩
    intro _ sub sub' hsub hremove
    cases hremove
    exact hsub.remove k
  · cases hopen

theorem DistinctKeys.closeTable
    {t : Entries} (h : root.DistinctKeys) (ht : t.DistinctKeys)
    (hfs : closeTable path k t root = some fs) :
    fs.DistinctKeys := by
  refine h.descend ?_ hfs
  intro _ sub sub' hsub hchange
  split at hchange
  · cases hchange
  · rename_i hlookup
    cases hchange
    exact hsub.append hlookup (ht.toTable .explicit)

theorem DistinctKeys.appendTable
    {t : Entries} (h : root.DistinctKeys) (ht : t.DistinctKeys)
    (hfs : appendTable path k t root = some fs) :
    fs.DistinctKeys := by
  refine h.descend ?_ hfs
  intro _ sub sub' hsub hchange
  split at hchange
  · rename_i hlookup
    cases hchange
    refine hsub.append hlookup (distinctKeys_tables_iff.2 ?_)
    exact List.forall_mem_singleton.2 ht
  · rename_i ts hlookup
    cases hchange
    have hts := distinctKeys_tables_iff.1 (hsub.node hlookup)
    exact hsub.put (distinctKeys_tables_iff.2 (List.forall_mem_cons.2 ⟨ht, hts⟩))
  · cases hchange

end Entries

/-! ## Finished values -/

theorem entriesToValues_eq_map
    (es : List (String × Node)) :
    entriesToValues es = es.map fun e => (e.1, e.2.toValue) := by
  induction es with
  | nil => rw [entriesToValues, List.map_nil]
  | cons e es ih => rw [entriesToValues, ih, List.map_cons]

theorem tablesToValues_eq_map
    (ts : List (List (String × Node))) :
    tablesToValues ts = ts.map fun t => .table (entriesToValues t) := by
  induction ts with
  | nil => rw [tablesToValues, List.map_nil]
  | cons t ts ih => rw [tablesToValues, ih, List.map_cons]

theorem distinctKeys_table_entriesToValues
    {es : List (String × Node)} (hnodup : (es.map Prod.fst).Nodup)
    (hnodes : ∀ e ∈ es, e.2.toValue.DistinctKeys) :
    (Value.table (entriesToValues es)).DistinctKeys := by
  rw [entriesToValues_eq_map]
  constructor
  · rw [List.map_map]
    exact hnodup
  · intro f hf
    obtain ⟨e, he, rfl⟩ := List.mem_map.1 hf
    exact hnodes e he

theorem Node.DistinctKeys.toValue
    {n : Node} (h : n.DistinctKeys) :
    n.toValue.DistinctKeys := by
  induction h with
  | value hv =>
    rw [Node.toValue]
    exact hv
  | table hnodup _ ih =>
    rw [Node.toValue]
    exact distinctKeys_table_entriesToValues hnodup ih
  | tables hnodup _ ih =>
    rw [Node.toValue, tablesToValues_eq_map]
    refine .array fun v hv => ?_
    obtain ⟨t, ht, rfl⟩ := List.mem_map.1 (List.mem_reverse.1 hv)
    exact distinctKeys_table_entriesToValues (hnodup t ht) (ih t ht)

/-! ## Readers -/

/-- Everything that a reader takes off the front of a text has a property. -/
def Yields {α : Type} (P : α → Prop) (read : Reader α) : Prop :=
  ∀ cs a rest, read cs = some (a, rest) → P a

theorem distinctKeys_of_int64?
    {n : Int} {v : Value} (hv : int64? n = some v) :
    v.DistinctKeys := by
  rw [int64?, Option.ite_none_right_eq_some] at hv
  cases hv.2
  exact .integer n

theorem yields_integer :
    Yields Value.DistinctKeys integer := by
  have hradix : ∀ base, Yields Value.DistinctKeys (radixInteger base) := by
    intro base cs v rest h
    obtain ⟨_, _, h⟩ := Option.bind_eq_some_iff.1 h
    obtain ⟨_, hn, h⟩ := Option.bind_eq_some_iff.1 h
    cases h
    exact distinctKeys_of_int64? hn
  intro cs v rest h
  unfold integer at h
  split at h
  · exact hradix 16 _ v rest h
  · exact hradix 8 _ v rest h
  · exact hradix 2 _ v rest h
  · obtain ⟨_, _, h⟩ := Option.bind_eq_some_iff.1 h
    obtain ⟨_, hn, h⟩ := Option.bind_eq_some_iff.1 h
    cases h
    exact distinctKeys_of_int64? hn

theorem yields_float :
    Yields Value.DistinctKeys float := by
  intro cs v rest h
  have hend : ∀ (refused : Bool) (r : List Char),
      (if refused = true then none else some (Value.float (taken cs r), r)) = some (v, rest) →
        v.DistinctKeys := by
    intro refused r hr
    rw [Option.ite_none_left_eq_some] at hr
    cases hr.2
    exact .float _
  unfold float at h
  split at h
  split at h
  · exact hend false _ h
  · exact hend false _ h
  · obtain ⟨_, _, h⟩ := Option.bind_eq_some_iff.1 h
    dsimp only at h
    split at h
    · exact hend _ _ h
    · obtain ⟨_, _, h⟩ := Option.bind_eq_some_iff.1 h
      split at h
      · exact hend _ _ h
      · exact hend _ _ h

theorem yields_moment :
    Yields Value.DistinctKeys moment := by
  intro cs v rest h
  rw [moment] at h
  split at h
  · obtain ⟨_, _, h⟩ := Option.map_eq_some_iff.1 h
    cases h
    exact .moment _
  · split at h
    · obtain ⟨_, _, h⟩ := Option.bind_eq_some_iff.1 h
      obtain ⟨_, _, h⟩ := Option.bind_eq_some_iff.1 h
      cases h
      exact .moment _
    · obtain ⟨_, _, h⟩ := Option.bind_eq_some_iff.1 h
      obtain ⟨_, _, h⟩ := Option.bind_eq_some_iff.1 h
      cases h
      exact .moment _
    · split at h
      · obtain ⟨_, _, h⟩ := Option.bind_eq_some_iff.1 h
        obtain ⟨_, _, h⟩ := Option.bind_eq_some_iff.1 h
        cases h
        exact .moment _
      · cases h
        exact .moment _
    · cases h
      exact .moment _

theorem yields_scalar :
    Yields Value.DistinctKeys scalar := by
  have hnumeric : Yields Value.DistinctKeys numeric := by
    intro cs v rest h
    rw [numeric] at h
    split at h
    · rename_i hmoment
      exact yields_moment cs v rest (hmoment.trans h)
    · split at h
      · rename_i hfloat
        exact yields_float cs v rest (hfloat.trans h)
      · exact yields_integer cs v rest h
  intro cs v rest h
  unfold scalar at h
  split at h
  · obtain ⟨_, _, h⟩ := Option.map_eq_some_iff.1 h
    cases h
    exact .text _
  · obtain ⟨_, _, h⟩ := Option.map_eq_some_iff.1 h
    cases h
    exact .text _
  · cases h
    exact .boolean _
  · cases h
    exact .boolean _
  · exact hnumeric cs v rest h

section Nested

variable {read : Reader Value} (hread : Yields Value.DistinctKeys read)

include hread

theorem yields_pair :
    Yields (fun p => p.2.2.DistinctKeys) (pair read) := by
  intro cs p rest h
  obtain ⟨_, _, h⟩ := Option.bind_eq_some_iff.1 h
  obtain ⟨_, _, h⟩ := Option.bind_eq_some_iff.1 h
  obtain ⟨_, hvalue, h⟩ := Option.bind_eq_some_iff.1 h
  obtain ⟨_, _, h⟩ := Option.bind_eq_some_iff.1 h
  cases h
  exact hread _ _ _ hvalue

theorem yields_elements
    (fuel : Nat) :
    Yields (fun vs => ∀ v ∈ vs, v.DistinctKeys) (elements read fuel) := by
  induction fuel with
  | zero =>
    intro cs vs rest h
    cases h
  | succ fuel ih =>
    intro cs vs rest h
    rw [elements] at h
    split at h
    · cases h
      exact fun v hv => absurd hv List.not_mem_nil
    · obtain ⟨⟨v, r⟩, hvalue, h⟩ := Option.bind_eq_some_iff.1 h
      have hv := hread _ _ _ hvalue
      dsimp only at h
      split at h
      · obtain ⟨⟨us, r'⟩, hus, h⟩ := Option.bind_eq_some_iff.1 h
        cases h
        exact List.forall_mem_cons.2 ⟨hv, ih _ _ _ hus⟩
      · cases h
        exact List.forall_mem_singleton.2 hv
      · cases h

theorem distinctKeys_of_inlinePairs
    (fuel : Nat) {es fs : Entries} {cs rest : List Char} (hes : es.DistinctKeys)
    (h : inlinePairs read fuel es cs = some (fs, rest)) :
    fs.DistinctKeys := by
  induction fuel generalizing es cs with
  | zero => cases h
  | succ fuel ih =>
    rw [inlinePairs] at h
    obtain ⟨⟨⟨path, k, v⟩, r⟩, hpair, h⟩ := Option.bind_eq_some_iff.1 h
    obtain ⟨es', hadd, h⟩ := Option.bind_eq_some_iff.1 h
    have hes' := hes.addDotted (yields_pair hread _ _ _ hpair) hadd
    split at h
    · exact ih hes' h
    · cases h
      exact hes'
    · cases h

theorem yields_inlineTable :
    Yields Value.DistinctKeys (inlineTable read) := by
  intro cs v rest h
  rw [inlineTable] at h
  split at h
  · cases h
    exact .table List.nodup_nil fun _ he => absurd he List.not_mem_nil
  · obtain ⟨⟨es, r⟩, hes, h⟩ := Option.bind_eq_some_iff.1 h
    cases h
    have hdistinct := distinctKeys_of_inlinePairs hread _ Entries.distinctKeys_nil hes
    exact (hdistinct.toTable .explicit).toValue

end Nested

theorem yields_value
    (depth : Nat) :
    Yields Value.DistinctKeys (value depth) := by
  induction depth with
  | zero =>
    intro cs v rest h
    cases h
  | succ depth ih =>
    cases depth with
    | zero => exact yields_scalar
    | succ depth =>
      intro cs v rest h
      unfold value at h
      split at h
      · obtain ⟨_, helements, h⟩ := Option.map_eq_some_iff.1 h
        cases h
        exact .array (yields_elements ih _ _ _ _ helements)
      · exact yields_inlineTable ih _ _ _ h
      · exact yields_scalar _ _ _ h

/-! ## Documents -/

/-- No key occurs twice in what has been read of a document. -/
structure Draft.DistinctKeys (d : Draft) : Prop where
  root : d.root.DistinctKeys
  current : d.current.DistinctKeys

namespace Draft

theorem DistinctKeys.close
    {d : Draft} (h : d.DistinctKeys) {es : Entries} (hes : d.close = some es) :
    es.DistinctKeys := by
  unfold Draft.close at hes
  split at hes
  · cases hes
    exact h.current
  · exact h.root.closeTable h.current hes
  · exact h.root.appendTable h.current hes

theorem DistinctKeys.beginTable
    {d e : Draft} (h : d.DistinctKeys) {ks : List String} (he : d.beginTable ks = some e) :
    e.DistinctKeys := by
  obtain ⟨root, hroot, he⟩ := Option.bind_eq_some_iff.1 he
  obtain ⟨_, _, he⟩ := Option.bind_eq_some_iff.1 he
  obtain ⟨_, hopen, he⟩ := Option.bind_eq_some_iff.1 he
  cases he
  obtain ⟨hcurrent, hroot⟩ := (h.close hroot).openTable hopen
  exact ⟨hroot, hcurrent⟩

theorem DistinctKeys.beginElement
    {d e : Draft} (h : d.DistinctKeys) {ks : List String} (he : d.beginElement ks = some e) :
    e.DistinctKeys := by
  obtain ⟨root, hroot, he⟩ := Option.bind_eq_some_iff.1 he
  obtain ⟨_, _, he⟩ := Option.bind_eq_some_iff.1 he
  rw [Option.ite_none_right_eq_some] at he
  cases he.2
  exact ⟨h.close hroot, Entries.distinctKeys_nil⟩

end Draft

theorem Draft.DistinctKeys.header
    {d e : Draft} (h : d.DistinctKeys) {cs rest : List Char}
    (he : Toml.header d cs = some (e, rest)) :
    e.DistinctKeys := by
  unfold Toml.header at he
  split at he
  · obtain ⟨_, _, he⟩ := Option.bind_eq_some_iff.1 he
    obtain ⟨_, _, he⟩ := Option.bind_eq_some_iff.1 he
    obtain ⟨_, _, he⟩ := Option.bind_eq_some_iff.1 he
    obtain ⟨_, _, he⟩ := Option.bind_eq_some_iff.1 he
    obtain ⟨_, hbegin, he⟩ := Option.bind_eq_some_iff.1 he
    cases he
    exact h.beginElement hbegin
  · obtain ⟨_, _, he⟩ := Option.bind_eq_some_iff.1 he
    obtain ⟨_, _, he⟩ := Option.bind_eq_some_iff.1 he
    obtain ⟨_, _, he⟩ := Option.bind_eq_some_iff.1 he
    obtain ⟨_, hbegin, he⟩ := Option.bind_eq_some_iff.1 he
    cases he
    exact h.beginTable hbegin
  · cases he

theorem Draft.DistinctKeys.keyValue
    {d e : Draft} (h : d.DistinctKeys) {cs rest : List Char}
    (he : Toml.keyValue d cs = some (e, rest)) :
    e.DistinctKeys := by
  obtain ⟨_, hpair, he⟩ := Option.bind_eq_some_iff.1 he
  obtain ⟨_, _, he⟩ := Option.bind_eq_some_iff.1 he
  obtain ⟨_, hadd, he⟩ := Option.bind_eq_some_iff.1 he
  cases he
  have hvalue := yields_pair (yields_value maxDepth) _ _ _ hpair
  exact ⟨h.root, h.current.addDotted hvalue hadd⟩

theorem Draft.DistinctKeys.lines
    {fuel : Nat} {d e : Draft} (h : d.DistinctKeys) {cs : List Char}
    (he : Toml.lines fuel d cs = some e) :
    e.DistinctKeys := by
  induction fuel generalizing d cs with
  | zero => cases he
  | succ fuel ih =>
    rw [Toml.lines] at he
    split at he
    · cases he
      exact h
    · obtain ⟨_, _, he⟩ := Option.bind_eq_some_iff.1 he
      exact ih h he
    · obtain ⟨_, hheader, he⟩ := Option.bind_eq_some_iff.1 he
      exact ih (h.header hheader) he
    · split at he
      · exact ih h he
      · obtain ⟨_, hpair, he⟩ := Option.bind_eq_some_iff.1 he
        exact ih (h.keyValue hpair) he

/-- What is read of a text is a table, and no table in it has a key twice. -/
theorem distinctKeys_of_parse
    {text : String} {v : Value} (hv : parse text = some v) :
    v.DistinctKeys ∧ ∃ es, v = .table es := by
  obtain ⟨d, hd, hv⟩ := Option.bind_eq_some_iff.1 hv
  obtain ⟨es, hes, hv⟩ := Option.bind_eq_some_iff.1 hv
  cases hv
  have hempty : Draft.DistinctKeys {} := ⟨Entries.distinctKeys_nil, Entries.distinctKeys_nil⟩
  have hdistinct := (hempty.lines hd).close hes
  refine ⟨(hdistinct.toTable .explicit).toValue, entriesToValues es, ?_⟩
  rw [Node.toValue]

end Toml
end TraceLineage
