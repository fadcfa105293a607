import ContractBindings.Proofs.Document.Schemas
import ContractBindings.Proofs.Schema.Identity

/-!
# Pointers that a walk builds

A walk goes from the root of a document down by keys that can be segments and by indices, and lengthens the pointer at
every step (`Stands`); the references that it lists are those of the nodes that it comes to (`mem_occurrences_iff`). Such
a node is found again at its pointer, and no other node has that pointer (`pointers_of_addressable`), where no two keys of
a mapping read the same and no mapping or sequence has a tag in front (`Tree.addressable`): the walk looks through tags,
`Pointer.lookup?` does not.

A key comes back from its written form whatever characters are in it. Writing and reading are two textual replacements
each, and what is replaced first when writing is put back last (`escapeChars_eq`, `unescapeChars_eq`).
-/

namespace ContractBindings

/-! ## Indices -/

namespace Number

theorem digitValue?_of_isDigit {c : Char} (h : c.isDigit = true) : digitValue? 10 c = some (c.toNat - '0'.toNat) := by
  have hlt : c.toNat - '0'.toNat < 10 := by
    have hle : c.toNat ≤ '9'.toNat := by
      have hc := h
      rw [Char.isDigit, Bool.and_eq_true, decide_eq_true_eq, decide_eq_true_eq] at hc
      exact UInt32.le_iff_toNat_le.1 hc.2
    have h9 : '9'.toNat = 57 := rfl
    have h0 : '0'.toNat = 48 := rfl
    omega
  rw [digitValue?, if_pos h]
  exact if_pos (decide_eq_true hlt)

theorem numeralFrom?_of_digits : ∀ {cs : List Char} {read : Nat}, (∀ c ∈ cs, c.isDigit = true) →
    numeralFrom? 10 read cs = some (Nat.ofDigitChars 10 cs read)
  | [], read, _ => by rw [numeralFrom?, Nat.ofDigitChars_nil]
  | c :: cs, read, h => by
    rw [numeralFrom?, digitValue?_of_isDigit (h c List.mem_cons_self), Option.bind_some,
      numeralFrom?_of_digits fun d hd => h d (List.mem_cons_of_mem c hd), Nat.ofDigitChars_cons, Nat.mul_comm]

/-- An index is read back from its digits. -/
theorem unsigned?_toString (i : Nat) : unsigned? (toString i).toList = some i := by
  have hdigit : ∀ c ∈ Nat.toDigits 10 i, c.isDigit = true := fun c hc =>
    Nat.isDigit_of_mem_toDigits (by decide) (by decide) hc
  have hvalue : Nat.ofDigitChars 10 (Nat.toDigits 10 i) 0 = i := Nat.ofDigitChars_ten_toDigits
  rw [Nat.toString_eq_ofList_toDigits, String.toList_ofList]
  cases hcs : Nat.toDigits 10 i with
  | nil => exact absurd hcs Nat.toDigits_ne_nil
  | cons c cs =>
    rw [hcs] at hdigit hvalue
    have hplus : c ≠ '+' := by
      rintro rfl
      exact absurd (hdigit '+' List.mem_cons_self) (by decide)
    unfold unsigned?
    split
    · next heq => exact absurd (List.cons.inj heq).1 hplus
    · rw [numeral?, numeralFrom?_of_digits hdigit, hvalue]
      exact List.cons_ne_nil c cs

end Number

namespace Pointer

/-! ## Written segments as replacements -/

/-- Every occurrence of a character replaced by others. -/
def replaceChar (old : Char) (new : List Char) (cs : List Char) : List Char :=
  cs.flatMap fun c => if c = old then new else [c]

/-- Every occurrence of two characters in a row, from the left, replaced by one. -/
def replacePair (first second new : Char) : List Char → List Char
  | [] => []
  | [c] => [c]
  | c :: d :: cs =>
    if c = first ∧ d = second then new :: replacePair first second new cs
    else c :: replacePair first second new (d :: cs)

/-- A segment is written by replacing the tildes, then the slashes. -/
theorem escapeChars_eq (cs : List Char) :
    escapeChars cs = replaceChar '/' ['~', '1'] (replaceChar '~' ['~', '0'] cs) := by
  induction cs with
  | nil => rfl
  | cons c cs ih =>
    by_cases ht : c = '~'
    · rw [ht, escapeChars, ih]
      rfl
    · by_cases hs : c = '/'
      · rw [hs, escapeChars, ih]
        rfl
      · simp [escapeChars, replaceChar, ih, ht, hs]

theorem replacePair_cons_of_ne {first second new c : Char} (h : c ≠ first) (cs : List Char) :
    replacePair first second new (c :: cs) = c :: replacePair first second new cs := by
  cases cs with
  | nil => rfl
  | cons d cs => rw [replacePair, if_neg fun hc => h hc.1]

/-- What is put in place of a pair is the only character that can come to the front. -/
theorem head?_replacePair {first second new c d : Char} {cs : List Char} (hd : d ≠ c) (hnew : new ≠ c) :
    (replacePair first second new (d :: cs)).head? ≠ some c := by
  cases cs with
  | nil => simpa [replacePair] using hd
  | cons e cs =>
    rw [replacePair]
    split
    · simpa using hnew
    · simpa using hd

/-- A segment is read back by replacing the pairs that stand for slashes, then those that stand for tildes. The slash that
a pair leaves does not complete another pair. -/
theorem unescapeChars_eq (cs : List Char) :
    unescapeChars cs = replacePair '~' '0' '~' (replacePair '~' '1' '/' cs) := by
  induction cs using unescapeChars.induct with
  | case1 => rfl
  | case2 cs ih =>
    have hzero : replacePair '~' '1' '/' ('~' :: '0' :: cs) = '~' :: '0' :: replacePair '~' '1' '/' cs := by
      rw [replacePair, if_neg (by decide), replacePair_cons_of_ne (by decide)]
    rw [unescapeChars, ih, hzero, replacePair, if_pos ⟨rfl, rfl⟩]
  | case3 cs ih =>
    rw [unescapeChars, ih, replacePair, if_pos ⟨rfl, rfl⟩, replacePair_cons_of_ne (by decide)]
  | case4 c cs hzero hone ih =>
    rw [unescapeChars, ih]
    · by_cases hc : c = '~'
      · subst hc
        cases cs with
        | nil => rfl
        | cons d cs =>
          have hd0 : d ≠ '0' := fun h => hzero cs rfl (h ▸ rfl)
          have hd1 : d ≠ '1' := fun h => hone cs rfl (h ▸ rfl)
          have hfront : (replacePair '~' '1' '/' (d :: cs)).head? ≠ some '0' := head?_replacePair hd0 (by decide)
          rw [show replacePair '~' '1' '/' ('~' :: d :: cs) = '~' :: replacePair '~' '1' '/' (d :: cs) by
            rw [replacePair, if_neg fun h => hd1 h.2]]
          cases hrest : replacePair '~' '1' '/' (d :: cs) with
          | nil => rfl
          | cons e es =>
            rw [hrest] at hfront
            have he : e ≠ '0' := fun h => hfront (h ▸ rfl)
            rw [replacePair, if_neg fun h => he h.2]
      · rw [replacePair_cons_of_ne hc, replacePair_cons_of_ne hc]
    · exact fun rest hc hcs => hzero rest hc hcs
    · exact fun rest hc hcs => hone rest hc hcs

/-! ## Pointers of children -/

theorem toList_child (parent segment : String) :
    (child parent segment).toList = parent.toList ++ '/' :: escapeChars segment.toList :=
  SchemaId.child_toList ⟨parent⟩ segment

theorem splitSlash_child (parent segment : String) :
    splitSlash (child parent segment).toList = splitSlash parent.toList ++ [escapeChars segment.toList] := by
  rw [toList_child, splitSlash_append_slash, splitSlash_of_not_mem (slash_not_mem_escapeChars _)]

/-- The last segment of a child's pointer is the segment that it is under. -/
theorem lastSegment_child (parent segment : String) : lastSegment (child parent segment) = segment := by
  rw [lastSegment, splitSlash_child, List.getLastD_concat, unescapeChars_escapeChars, String.ofList_toList]

theorem child_inj {p q s t : String} (h : child p s = child q t) : p = q ∧ s = t := by
  have hsegment : s = t := by rw [← lastSegment_child p s, h, lastSegment_child]
  subst hsegment
  have hparent := congrArg String.toList h
  rw [toList_child, toList_child] at hparent
  exact ⟨String.toList_inj.1 (List.append_cancel_right hparent), rfl⟩

theorem child_ne_root (parent segment : String) : child parent segment ≠ "#" := by
  intro h
  have hmem : '/' ∈ (child parent segment).toList := by
    rw [toList_child]
    simp
  rw [h] at hmem
  exact absurd hmem (by decide)

theorem follow?_concat (part : List Char) : ∀ (parts : List (List Char)) (node : Tree),
    follow? node (parts ++ [part]) =
      (follow? node parts).bind fun last => step? last (String.ofList (unescapeChars part))
  | [], node => by
    rw [List.nil_append, follow?, follow?, Option.bind_some]
    cases step? node (String.ofList (unescapeChars part)) <;> rfl
  | first :: parts, node => by
    rw [List.cons_append, follow?, follow?, Option.bind_assoc]
    exact congrArg _ (funext fun next => follow?_concat part parts next)

/-- The node at a child's pointer is one step from the node at the parent's. -/
theorem lookup?_child {root node : Tree} {parent : String} (h : lookup? root parent = some node) (segment : String) :
    lookup? root (child parent segment) = step? node segment := by
  have hpart : String.ofList (unescapeChars (escapeChars segment.toList)) = segment := by
    rw [unescapeChars_escapeChars, String.ofList_toList]
  unfold lookup? at h ⊢
  rw [toList_child]
  split at h
  · next heq =>
    cases h
    have hsplit := splitSlash_of_not_mem (slash_not_mem_escapeChars segment.toList)
    rw [heq]
    simp only [List.cons_append, List.nil_append]
    rw [hsplit, ← List.nil_append [escapeChars segment.toList], follow?_concat, follow?, Option.bind_some, hpart]
  · next path heq =>
    rw [heq]
    simp only [List.cons_append]
    rw [splitSlash_append_slash, splitSlash_of_not_mem (slash_not_mem_escapeChars _), follow?_concat, h,
      Option.bind_some, hpart]
  · cases h

end Pointer

/-! ## Trees whose nodes can be told apart -/

namespace Tree

mutual

/-- What a walk over the tree comes to is told apart by its pointer: no two keys of a mapping read the same, and no mapping
or sequence has a tag in front. -/
def addressable : Tree → Bool
  | .mapping entries => decide (entries.filterMap (·.1.keyText?)).Nodup && addressableEntries entries
  | .sequence items => addressableItems items
  | .tagged _ value => value.asMapping?.isNone && value.asSequence?.isNone
  | _ => true

/-- The values under keys that can be segments are addressable. -/
def addressableEntries : List (Tree × Tree) → Bool
  | [] => true
  | (key, value) :: rest => (key.keyText?.isNone || value.addressable) && addressableEntries rest

/-- The items are addressable. -/
def addressableItems : List Tree → Bool
  | [] => true
  | item :: rest => item.addressable && addressableItems rest

end

variable {tree value key item : Tree} {entries : Entries} {items : List Tree} {segment : String}

theorem addressable_of_mem_entries (h : addressableEntries entries = true) (hmem : (key, value) ∈ entries)
    (hkey : key.keyText? = some segment) : value.addressable = true := by
  induction entries with
  | nil => cases hmem
  | cons first rest ih =>
    obtain ⟨k, v⟩ := first
    rw [addressableEntries, Bool.and_eq_true] at h
    rcases List.mem_cons.1 hmem with heq | hmem
    · cases heq
      simpa [hkey] using h.1
    · exact ih h.2 hmem

theorem addressable_of_mem_items (h : addressableItems items = true) (hmem : item ∈ items) :
    item.addressable = true := by
  induction items with
  | nil => cases hmem
  | cons first rest ih =>
    rw [addressableItems, Bool.and_eq_true] at h
    rcases List.mem_cons.1 hmem with rfl | hmem
    · exact h.1
    · exact ih h.2 hmem

theorem untag_ne_tagged (tree : Tree) {tag : String} : tree.untag ≠ .tagged tag value := by
  induction tree using untag.induct with
  | case1 own inner ih => rwa [untag]
  | case2 tree hno =>
    unfold untag
    split
    · next own inner => exact absurd rfl (hno own inner)
    · exact hno tag value

/-- An addressable mapping has no tag in front, keys that read differently, and addressable values. -/
theorem mapping_of_addressable (h : tree.addressable = true) (hentries : tree.asMapping? = some entries) :
    tree = .mapping entries ∧ (entries.filterMap (·.1.keyText?)).Nodup ∧ addressableEntries entries = true := by
  cases tree with
  | mapping own =>
    cases hentries
    rw [addressable, Bool.and_eq_true, decide_eq_true_eq] at h
    exact ⟨rfl, h⟩
  | tagged tag value =>
    have hvalue : value.asMapping? = some entries := hentries
    rw [addressable, hvalue] at h
    cases h
  | _ => cases hentries

/-- An addressable sequence has no tag in front and addressable items. -/
theorem sequence_of_addressable (h : tree.addressable = true) (hitems : tree.asSequence? = some items) :
    tree = .sequence items ∧ addressableItems items = true := by
  cases tree with
  | sequence own =>
    cases hitems
    rw [addressable] at h
    exact ⟨rfl, h⟩
  | tagged tag value =>
    have hvalue : value.asSequence? = some items := hitems
    rw [addressable, hvalue, Bool.and_eq_true] at h
    cases h.2
  | _ => cases hitems

/-- Where keys read differently, the entry under a segment is at one position. -/
theorem index_eq_of_keyText (hn : (entries.filterMap (·.1.keyText?)).Nodup) {i j : Nat} {k l v w : Tree}
    (hi : entries[i]? = some (k, v)) (hj : entries[j]? = some (l, w)) (hk : k.keyText? = some segment)
    (hl : l.keyText? = some segment) : i = j := by
  have hpairs := List.pairwise_iff_getElem.1 (List.pairwise_filterMap.1 hn)
  obtain ⟨hilt, hieq⟩ := List.getElem?_eq_some_iff.1 hi
  obtain ⟨hjlt, hjeq⟩ := List.getElem?_eq_some_iff.1 hj
  rcases Nat.lt_trichotomy i j with hlt | heq | hlt
  · exact absurd rfl (hpairs i j hilt hjlt hlt segment (hieq ▸ hk) segment (hjeq ▸ hl))
  · exact heq
  · exact absurd rfl (hpairs j i hjlt hilt hlt segment (hjeq ▸ hl) segment (hieq ▸ hk))

/-- Where keys read differently, every entry under a segment is the one that the segment leads to. -/
theorem step?_of_entry (hn : (entries.filterMap (·.1.keyText?)).Nodup) {i : Nat} (hi : entries[i]? = some (key, value))
    (hkey : key.keyText? = some segment) : Pointer.step? (.mapping entries) segment = some value := by
  rw [Pointer.step?]
  cases hfound : entries.find? fun c => c.1.keyText? == some segment with
  | none =>
    have := List.find?_eq_none.1 hfound _ (List.mem_of_getElem? hi)
    simp [hkey] at this
  | some found =>
    obtain ⟨l, w⟩ := found
    obtain ⟨j, hj⟩ := List.mem_iff_getElem?.1 (List.mem_of_find?_eq_some hfound)
    have hl : l.keyText? = some segment := by simpa using List.find?_some hfound
    have hij := index_eq_of_keyText hn hi hj hkey hl
    rw [hij, hj] at hi
    cases hi
    rfl

theorem step?_of_item {i : Nat} (hi : items[i]? = some item) :
    Pointer.step? (.sequence items) (toString i) = some item := by
  rw [Pointer.step?, Number.unsigned?_toString, Option.bind_some, hi]

end Tree

/-! ## The nodes of a walk -/

/-- A node stands at the pointer that a walk builds on its way from the root, which goes by the entries and items at these
positions. -/
inductive Stands (root : Tree) : List Nat → String → Tree → Prop
  | root : Stands root [] "#" root
  | entry {way : List Nat} {pointer segment : String} {node key value : Tree} {entries : Entries} {i : Nat} :
      Stands root way pointer node → node.asMapping? = some entries → entries[i]? = some (key, value) →
        key.keyText? = some segment → Stands root (way ++ [i]) (Pointer.child pointer segment) value
  | item {way : List Nat} {pointer : String} {node item : Tree} {items : List Tree} {i : Nat} :
      Stands root way pointer node → node.asSequence? = some items → items[i]? = some item →
        Stands root (way ++ [i]) (Pointer.child pointer (toString i)) item

namespace Stands

variable {root node node' tree : Tree} {way way' : List Nat} {pointer pointer' : String} {o : Reference.Occurrence}

/-- A node of a walk over an addressable tree is found again. -/
theorem lookup (h : root.addressable = true) (hs : Stands root way pointer node) :
    Pointer.lookup? root pointer = some node ∧ node.addressable = true := by
  induction hs with
  | root => exact ⟨rfl, h⟩
  | entry _ hentries hi hkey ih =>
    obtain ⟨hfound, hnode⟩ := ih
    obtain ⟨rfl, hn, hvalues⟩ := Tree.mapping_of_addressable hnode hentries
    refine ⟨?_, Tree.addressable_of_mem_entries hvalues (List.mem_of_getElem? hi) hkey⟩
    rw [Pointer.lookup?_child hfound, Tree.step?_of_entry hn hi hkey]
  | item _ hitems hi ih =>
    obtain ⟨hfound, hnode⟩ := ih
    obtain ⟨rfl, hvalues⟩ := Tree.sequence_of_addressable hnode hitems
    refine ⟨?_, Tree.addressable_of_mem_items hvalues (List.mem_of_getElem? hi)⟩
    rw [Pointer.lookup?_child hfound, Tree.step?_of_item hi]

/-- A walk over an addressable tree has one node for a pointer. -/
theorem node_eq (h : root.addressable = true) (hs : Stands root way pointer node) (hs' : Stands root way' pointer node') :
    node = node' := Option.some.inj ((hs.lookup h).1.symm.trans (hs'.lookup h).1)

/-- Two nodes of a walk with one pointer are at the same positions. -/
theorem way_eq (h : root.addressable = true) (hs : Stands root way pointer node)
    (hs' : Stands root way' pointer' node') (hp : pointer = pointer') : way = way' := by
  induction hs generalizing way' pointer' node' with
  | root =>
    cases hs' with
    | root => rfl
    | entry => exact absurd hp.symm (Pointer.child_ne_root _ _)
    | item => exact absurd hp.symm (Pointer.child_ne_root _ _)
  | entry hs hentries hi hkey ih =>
    obtain ⟨rfl, hn, -⟩ := Tree.mapping_of_addressable (hs.lookup h).2 hentries
    cases hs' with
    | root => exact absurd hp (Pointer.child_ne_root _ _)
    | entry hs' hentries' hi' hkey' =>
      obtain ⟨rfl, rfl⟩ := Pointer.child_inj hp
      obtain rfl := hs.node_eq h hs'
      cases hentries'
      rw [ih hs' rfl, Tree.index_eq_of_keyText hn hi hi' hkey hkey']
    | item hs' hitems' =>
      obtain ⟨rfl, -⟩ := Pointer.child_inj hp
      obtain rfl := hs.node_eq h hs'
      cases hitems'
  | @item _ _ _ _ _ i hs hitems hi ih =>
    obtain ⟨rfl, -⟩ := Tree.sequence_of_addressable (hs.lookup h).2 hitems
    cases hs' with
    | root => exact absurd hp (Pointer.child_ne_root _ _)
    | entry hs' hentries' =>
      obtain ⟨rfl, -⟩ := Pointer.child_inj hp
      obtain rfl := hs.node_eq h hs'
      cases hentries'
    | @item _ _ _ _ _ j hs' =>
      obtain ⟨rfl, hindex⟩ := Pointer.child_inj hp
      have hij : i = j := Option.some.inj (by
        rw [← Number.unsigned?_toString i, hindex, Number.unsigned?_toString])
      rw [ih hs' rfl, hij]

/-! ## What the walk lists -/

theorem mem_occurrencesOfEntries_iff {entries : List (Tree × Tree)} :
    o ∈ Reference.occurrencesOfEntries entries pointer ↔
      ∃ (i : Nat) (key value : Tree) (segment : String), entries[i]? = some (key, value) ∧ key.keyText? = some segment ∧
        o ∈ Reference.occurrences value (Pointer.child pointer segment) := by
  constructor
  · intro ho
    induction entries with
    | nil => simp [Reference.occurrencesOfEntries] at ho
    | cons first rest ih =>
      obtain ⟨key, value⟩ := first
      rw [Reference.occurrencesOfEntries, List.mem_append] at ho
      rcases ho with ho | ho
      · cases hkey : key.keyText? with
        | none => simp [hkey] at ho
        | some segment =>
          rw [hkey] at ho
          exact ⟨0, key, value, segment, rfl, hkey, ho⟩
      · obtain ⟨i, found⟩ := ih ho
        exact ⟨i + 1, found⟩
  · rintro ⟨i, key, value, segment, hi, hkey, ho⟩
    exact Tree.mem_occurrencesOfEntries (List.mem_of_getElem? hi) hkey ho

theorem mem_occurrencesOfItems_iff {items : List Tree} {index : Nat} :
    o ∈ Reference.occurrencesOfItems items index pointer ↔
      ∃ (i : Nat) (item : Tree), items[i]? = some item ∧
        o ∈ Reference.occurrences item (Pointer.child pointer (toString (index + i))) := by
  induction items generalizing index with
  | nil => simp [Reference.occurrencesOfItems]
  | cons first rest ih =>
    rw [Reference.occurrencesOfItems, List.mem_append, ih]
    constructor
    · rintro (ho | ⟨i, item, hi, ho⟩)
      · exact ⟨0, first, rfl, ho⟩
      · exact ⟨i + 1, item, hi, by rwa [Nat.add_assoc, Nat.add_comm 1] at ho⟩
    · rintro ⟨i, item, hi, ho⟩
      cases i with
      | zero =>
        cases hi
        exact .inl ho
      | succ i => exact .inr ⟨i, item, hi, by rwa [Nat.add_right_comm]⟩

/-- A reference listed from a node of the walk on is that of a node of the walk. -/
theorem of_mem_occurrences (hs : Stands root way pointer node) (ho : o ∈ Reference.occurrences node pointer) :
    ∃ way' holder, Stands root way' o.holder holder ∧ holder.Refers o.reference := by
  induction hsize : node.size using Nat.strongRecOn generalizing node way pointer with
  | _ size ih =>
    subst hsize
    have huntag := (Tree.untag_partOf node).size_le
    rw [← Tree.occurrences_untag] at ho
    cases hnode : node.untag with
    | mapping entries =>
      rw [hnode, Tree.size] at huntag
      have hentries : node.asMapping? = some entries := by rw [Tree.asMapping?, hnode]
      rw [hnode, Reference.occurrences, List.mem_append] at ho
      rcases ho with ho | ho
      · cases htext : Reference.textOf? entries with
        | none => simp [htext] at ho
        | some reference =>
          rw [htext, List.mem_singleton] at ho
          subst ho
          exact ⟨way, node, hs, entries, hentries, htext⟩
      · obtain ⟨i, key, value, segment, hi, hkey, ho⟩ := mem_occurrencesOfEntries_iff.1 ho
        have hle := Tree.size_le_of_mem_entries (List.mem_of_getElem? hi)
        exact ih value.size (by omega) (.entry hs hentries hi hkey) ho rfl
    | sequence items =>
      rw [hnode, Tree.size] at huntag
      have hitems : node.asSequence? = some items := by rw [Tree.asSequence?, hnode]
      rw [hnode, Reference.occurrences] at ho
      obtain ⟨i, item, hi, ho⟩ := mem_occurrencesOfItems_iff.1 ho
      rw [Nat.zero_add] at ho
      have hle := Tree.size_le_of_mem_items (List.mem_of_getElem? hi)
      exact ih item.size (by omega) (.item hs hitems hi) ho rfl
    | tagged tag value => exact absurd hnode (Tree.untag_ne_tagged node)
    | _ => simp [hnode, Reference.occurrences] at ho

/-- What is listed from a node of the walk on is listed from the root on. -/
theorem occurrences_subset (hs : Stands root way pointer node) :
    ∀ o ∈ Reference.occurrences node pointer, o ∈ Reference.occurrences root "#" := by
  induction hs with
  | root => exact fun _ ho => ho
  | entry _ hentries hi hkey ih =>
    intro o ho
    apply ih
    rw [← Tree.occurrences_untag, Tree.untag_of_asMapping? hentries, Reference.occurrences]
    exact List.mem_append_right _ (mem_occurrencesOfEntries_iff.2 ⟨_, _, _, _, hi, hkey, ho⟩)
  | item _ hitems hi ih =>
    intro o ho
    apply ih
    rw [← Tree.occurrences_untag, Tree.untag_of_asSequence? hitems, Reference.occurrences]
    exact mem_occurrencesOfItems_iff.2 ⟨_, _, hi, by rwa [Nat.zero_add]⟩

/-- The walk lists the references of the nodes that it comes to. -/
theorem mem_occurrences_iff : o ∈ Reference.occurrences root "#" ↔
    ∃ way holder, Stands root way o.holder holder ∧ holder.Refers o.reference := by
  refine ⟨of_mem_occurrences .root, ?_⟩
  rintro ⟨way, holder, hs, entries, hentries, htext⟩
  refine hs.occurrences_subset o ?_
  rw [← Tree.occurrences_untag, Tree.untag_of_asMapping? hentries, Reference.occurrences, htext]
  exact List.mem_append_left _ (List.mem_singleton.2 rfl)

end Stands

/-! ## Lookup undoes the walk -/

/-- Pointers that a walk over an addressable tree builds are found: each leads to the node that the walk built it for, and
different nodes have different pointers. The walk is the one that lists the references of the document. A child's pointer
ends with the segment that the child is under, whatever the parent's is. -/
theorem pointers_of_addressable {root : Tree} (h : root.addressable = true) :
    (∀ way pointer node, Stands root way pointer node → Pointer.lookup? root pointer = some node) ∧
    (∀ way way' pointer pointer' node node', Stands root way pointer node → Stands root way' pointer' node' →
      way ≠ way' → pointer ≠ pointer') ∧
    (∀ o, o ∈ Reference.occurrences root "#" ↔
      ∃ way holder, Stands root way o.holder holder ∧ holder.Refers o.reference) ∧
    ∀ parent segment, Pointer.lastSegment (Pointer.child parent segment) = segment := by
  refine ⟨fun _ _ _ hs => (hs.lookup h).1, ?_, fun _ => Stands.mem_occurrences_iff, Pointer.lastSegment_child⟩
  intro way way' pointer pointer' node node' hs hs' hne hp
  exact hne (hs.way_eq h hs' hp)

/-- A tree with keys that are a slash, a tilde and what slashes are written as, an empty key, and a number. -/
def awkward : Tree :=
  .mapping [(.text "~1", .null), (.text "/", .mapping [(.text "~", .mapping [(.text "~1", .mapping [(.text "",
    .mapping [(.int 200, .sequence [.null, .text "found"])]), (.text "~0", .null)])])])]

theorem pointers_of_awkward_keys :
    awkward.addressable = true ∧ Pointer.lookup? awkward "#/~1/~0/~01//200/1" = some (.text "found") := by
  have hpointer : ["/", "~", "~1", "", toString (200 : Int), toString 1].foldl Pointer.child "#" =
      "#/~1/~0/~01//200/1" := by decide +kernel
  refine ⟨by decide +kernel, ?_⟩
  rw [← hpointer]
  exact (pointers_of_addressable (by decide +kernel)).1 [1, 0, 0, 0, 0, 1] _ _
    (.item (.entry (.entry (.entry (.entry (.entry .root rfl rfl rfl) rfl rfl rfl) rfl rfl rfl) rfl rfl rfl) rfl rfl rfl) rfl
      rfl)

end ContractBindings
