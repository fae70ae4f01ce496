import AgentTraceGateway.Json
import AgentTraceGateway.Lib.JsonText

/-! # Reading Back What Is Printed

  Everything the gateway sends as JSON goes through the printer of
  `serde_json`. Whoever receives it reads it with a parser of their own;
  `read_json` stands for that parser. The texts of Json.lean are printed
  trees of `JsonText`, so what is printed is read back. -/

namespace AgentTraceGateway

open JsonText

/-! ### The printer of `serde_json` -/

theorem nibble_hex_digit : ∀ n < 16, nibble (hex_digit n) = some n := by decide

/-- A control character is read back from its four digits. -/
theorem control_reads {c : Char} (h : c.toNat < 0x20) (rest : List Char) :
    string_char (['\\', 'u', '0', '0', hex_digit (c.toNat / 16), hex_digit (c.toNat % 16)] ++ rest)
      = some (c, rest) := by
  have hunit : code_unit ('0' :: '0' :: hex_digit (c.toNat / 16) :: hex_digit (c.toNat % 16) :: rest)
      = some (c.toNat, rest) := by
    have hsum : ((0 * 16 + 0) * 16 + c.toNat / 16) * 16 + c.toNat % 16 = c.toNat := by omega
    rw [code_unit, nibble_hex_digit _ (by omega), nibble_hex_digit _ (by omega)]
    exact congrArg some (Prod.ext hsum rfl)
  have hchar : unicode ('0' :: '0' :: hex_digit (c.toNat / 16) :: hex_digit (c.toNat % 16) :: rest)
      = some (c, rest) := by
    rw [unicode, hunit, Option.bind_some, if_pos (by omega), Char.ofNat_toNat]
  exact hchar

/-- The escapes of `serde_json` are taken back. -/
theorem escape_char_reads (c : Char) (rest : List Char) :
    string_char (Value.escape_char c ++ rest) = some (c, rest) := by
  unfold Value.escape_char
  split_ifs with hquote hslash hline hreturn htab hback hfeed hcontrol
  · rw [hquote]
    rfl
  · rw [hslash]
    rfl
  · rw [hline]
    rfl
  · rw [hreturn]
    rfl
  · rw [htab]
    rfl
  · rw [← Char.ofNat_toNat c, hback]
    rfl
  · rw [← Char.ofNat_toNat c, hfeed]
    rfl
  · exact control_reads hcontrol rest
  · simp [string_char, hquote, hslash, hcontrol]

def serde_escape : Escape := ⟨Value.escape_char, escape_char_reads⟩

/-- A tree as `serde_json` prints it. -/
def json_text (t : Tree) : String := String.ofList (print serde_escape t)

/-! ### Texts are printed trees -/

theorem quote_eq (s : String) : Value.quote s = json_text (str s) := by
  rw [json_text, str, print, JsonText.quote, Value.quote, ← String.toList_inj]
  simp [serde_escape]

theorem nat_text_eq (n : Nat) : toString n = json_text (nat n) := by
  rw [json_text, nat, print, ← String.toList_inj, Nat.toString_eq_repr, Nat.toList_repr,
    String.toList_ofList]

theorem bool_text_eq (b : Bool) : (if b then "true" else "false") = json_text (.bool b) := by
  cases b with
  | true =>
    rw [json_text, print]
    rfl
  | false =>
    rw [json_text, print]
    rfl

/-- Joined with commas, the texts of the items are the text of the array's inside. -/
theorem join_items : ∀ items : List Tree,
    (Text.join "," (items.map json_text)).toList = print_items serde_escape items
  | [] => by simp [Text.join, print_items]
  | [v] => by simp [Text.join, print_items, json_text]
  | v :: w :: rest => by
    have ih := join_items (w :: rest)
    rw [List.map_cons] at ih
    rw [List.map_cons, List.map_cons, Text.join, String.toList_append, String.toList_append, ih,
      print_items, json_text, String.toList_ofList, List.append_assoc]
    rfl

theorem join_entries : ∀ entries : List (String × Tree),
    (Text.join "," (entries.map fun e => Value.quote e.1 ++ ":" ++ json_text e.2)).toList
      = print_entries serde_escape (entries.map fun e => (e.1.toList, e.2))
  | [] => by simp [Text.join, print_entries]
  | [(k, v)] => by simp [Text.join, print_entries, quote_eq, json_text, str, print]
  | (k, v) :: e :: rest => by
    have ih := join_entries (e :: rest)
    rw [List.map_cons] at ih
    rw [List.map_cons, List.map_cons, Text.join, String.toList_append, String.toList_append, ih]
    simp only [List.map_cons]
    rw [print_entries]
    simp [quote_eq, json_text, str, print]

theorem seq_text_eq (items : List Tree) :
    seq_text (items.map json_text) = json_text (.array items) := by
  rw [seq_text, json_text, print, ← String.toList_inj]
  simp [join_items]

theorem struct_text_eq (entries : List (String × Tree)) :
    struct_text (entries.map fun e => (e.1, json_text e.2)) = json_text (fields entries) := by
  rw [struct_text, json_text, fields, print, ← String.toList_inj, List.map_map]
  have hjoin := join_entries entries
  simp only [Function.comp_def, String.toList_append, hjoin, String.toList_ofList]
  rfl

theorem single_item_eq (t : Tree) : seq_text [json_text t] = json_text (.array [t]) :=
  seq_text_eq [t]

theorem single_field_eq (key : String) (t : Tree) :
    struct_text [(key, json_text t)] = json_text (fields [(key, t)]) :=
  struct_text_eq [(key, t)]

theorem two_fields_eq (k₁ k₂ : String) (t₁ t₂ : Tree) :
    struct_text [(k₁, json_text t₁), (k₂, json_text t₂)]
      = json_text (fields [(k₁, t₁), (k₂, t₂)]) :=
  struct_text_eq [(k₁, t₁), (k₂, t₂)]

/-- A sequence whose items are printed trees. -/
theorem seq_text_map {α : Type} {text : α → String} {tree : α → Tree} (l : List α)
    (h : ∀ a, text a = json_text (tree a)) :
    seq_text (l.map text) = json_text (.array (l.map tree)) := by
  rw [← seq_text_eq, List.map_map]
  congr 1
  exact List.map_congr_left fun a _ => h a

/-! ### Values -/

namespace Value

mutual

/-- A value as a document. -/
def tree : Value → Tree
  | .null => .null
  | .bool b => .bool b
  | .number n => .number (number_text n).toList
  | .string s => str s
  | .array items => .array (items_tree items)
  | .object entries => .object (entries_tree entries)

def items_tree : List Value → List Tree
  | [] => []
  | v :: rest => tree v :: items_tree rest

def entries_tree : List (String × Value) → List (List Char × Tree)
  | [] => []
  | (k, v) :: rest => (k.toList, tree v) :: entries_tree rest

end

theorem items_tree_eq : ∀ items : List Value, items_tree items = items.map tree
  | [] => rfl
  | v :: rest => by rw [items_tree, items_tree_eq rest, List.map_cons]

theorem entries_tree_eq : ∀ entries : List (String × Value),
    entries_tree entries = entries.map fun e => (e.1.toList, e.2.tree)
  | [] => rfl
  | (k, v) :: rest => by rw [entries_tree, entries_tree_eq rest, List.map_cons]

mutual

/-- A value is printed as its document. -/
theorem to_string_eq : ∀ v : Value, v.to_string = json_text v.tree
  | .null => by
    rw [to_string, tree, json_text, print]
  | .bool true => by
    rw [to_string, tree]
    exact bool_text_eq true
  | .bool false => by
    rw [to_string, tree]
    exact bool_text_eq false
  | .number n => by
    rw [to_string, tree, json_text, print, String.ofList_toList]
  | .string s => by
    rw [to_string, tree, quote_eq]
  | .array items => by
    rw [array_to_string, items_to_string_eq items, seq_text_eq, tree, items_tree_eq]
  | .object entries => by
    have hfields : entries.map (fun e => (e.1, e.2.to_string))
        = (entries.map fun e => (e.1, e.2.tree)).map fun e => (e.1, json_text e.2) := by
      rw [entries_to_string_eq entries, List.map_map]
      rfl
    rw [object_to_string, hfields, struct_text_eq, tree, entries_tree_eq, fields, List.map_map]
    rfl

theorem items_to_string_eq : ∀ items : List Value,
    items.map to_string = (items.map tree).map json_text
  | [] => rfl
  | v :: rest => by
    rw [List.map_cons, List.map_cons, List.map_cons, to_string_eq v, items_to_string_eq rest]

theorem entries_to_string_eq : ∀ entries : List (String × Value),
    entries.map (fun e => (e.1, e.2.to_string))
      = entries.map fun e => (e.1, json_text e.2.tree)
  | [] => rfl
  | (k, v) :: rest => by
    rw [List.map_cons, List.map_cons, to_string_eq v, entries_to_string_eq rest]

end

/-- The document of an object has the object's entries. -/
theorem tree_object (entries : List (String × Value)) :
    (Value.object entries).tree = fields (entries.map fun e => (e.1, e.2.tree)) := by
  rw [tree, entries_tree_eq, fields, List.map_map]
  rfl

theorem lookup_map_tree (entries : List (String × Value)) (key : String) :
    (entries.map fun e => (e.1, e.2.tree)).lookup key = (entries.lookup key).map tree := by
  induction entries with
  | nil => rfl
  | cons e entries ih =>
    rw [List.map_cons, List.lookup_cons, List.lookup_cons, ih]
    cases key == e.1 <;> rfl

/-- A lookup goes entry by entry. -/
theorem lookup_entry (k' k : String) (w : Value) (rest : List (String × Value)) :
    List.lookup k ((k', w) :: rest) = if k = k' then some w else rest.lookup k := by
  rw [List.lookup_cons]
  by_cases hk : k = k'
  · rw [if_pos hk, beq_iff_eq.mpr hk]
  · rw [if_neg hk, beq_eq_false_iff_ne.mpr hk]

/-- An inserted entry is found, and the others are found as before. -/
theorem lookup_insert (key k : String) (v : Value) : ∀ entries : List (String × Value),
    (insert entries key v).lookup k = if k = key then some v else entries.lookup k
  | [] => lookup_entry key k v []
  | (k', w) :: rest => by
    have ih := lookup_insert key k v rest
    unfold insert
    by_cases hlt : key < k'
    · rw [if_pos hlt, lookup_entry]
    · rw [if_neg hlt]
      by_cases hkey : key = k'
      · rw [if_pos hkey, lookup_entry, lookup_entry, ← hkey]
        split_ifs <;> rfl
      · rw [if_neg hkey, lookup_entry, ih, lookup_entry]
        -- a key found in front is not the one inserted behind it
        split_ifs with h₁ h₂
        · exact absurd (h₂.symm.trans h₁) hkey
        · rfl
        · rfl
        · rfl

theorem mem_insert {key : String} {v : Value} {e : String × Value} :
    ∀ {entries : List (String × Value)}, e ∈ insert entries key v → e = (key, v) ∨ e ∈ entries
  | [], h => Or.inl (List.mem_singleton.mp h)
  | (k', w) :: rest, h => by
    unfold insert at h
    split_ifs at h
    · rcases List.mem_cons.mp h with rfl | h
      · exact Or.inl rfl
      · exact Or.inr h
    · rcases List.mem_cons.mp h with rfl | h
      · exact Or.inl rfl
      · exact Or.inr (List.mem_cons_of_mem _ h)
    · rcases List.mem_cons.mp h with rfl | h
      · exact Or.inr List.mem_cons_self
      · rcases mem_insert h with heq | hmem
        · exact Or.inl heq
        · exact Or.inr (List.mem_cons_of_mem _ hmem)

theorem lookup_foldl_insert {key : String} : ∀ {entries acc : List (String × Value)},
    key ∉ entries.map Prod.fst →
    (entries.foldl (fun acc e => insert acc e.1 e.2) acc).lookup key = acc.lookup key
  | [], _, _ => rfl
  | e :: entries, acc, h => by
    obtain ⟨hne, hrest⟩ := List.ne_and_not_mem_of_not_mem_cons h
    rw [List.foldl_cons, lookup_foldl_insert hrest, lookup_insert, if_neg hne]

/-- Where the keys are distinct, every entry is found. -/
theorem of_entries_get {entries : List (String × Value)} (hkeys : (entries.map Prod.fst).Nodup)
    {e : String × Value} (he : e ∈ entries) : (of_entries entries).get e.1 = some e.2 := by
  suffices h : ∀ acc, (entries.foldl (fun acc e => insert acc e.1 e.2) acc).lookup e.1 = some e.2 from
    h []
  induction entries with
  | nil => exact absurd he List.not_mem_nil
  | cons f entries ih =>
    intro acc
    obtain ⟨hf, hkeys⟩ := List.nodup_cons.mp hkeys
    rcases List.mem_cons.mp he with rfl | he
    · rw [List.foldl_cons, lookup_foldl_insert hf, lookup_insert, if_pos rfl]
    · exact ih hkeys he (insert acc f.1 f.2)

/-- The same in the document. -/
theorem of_entries_tree_get {entries : List (String × Value)}
    (hkeys : (entries.map Prod.fst).Nodup) {e : String × Value} (he : e ∈ entries) :
    (of_entries entries).tree.get e.1 = some e.2.tree := by
  have hget := of_entries_get hkeys he
  rw [of_entries, get] at hget
  rw [of_entries, tree_object, get_fields, lookup_map_tree, hget]
  rfl

/-- Objects with the same keys are the same document only where the values
    are. -/
theorem of_entries_tree_inj {entries entries' : List (String × Value)}
    (h : (of_entries entries).tree = (of_entries entries').tree)
    (hsame : entries'.map Prod.fst = entries.map Prod.fst)
    (hkeys : (entries.map Prod.fst).Nodup) :
    entries.map (fun e => e.2.tree) = entries'.map fun e => e.2.tree := by
  have hlen : entries'.length = entries.length := by
    rw [← List.length_map Prod.fst, hsame, List.length_map]
  refine List.ext_getElem (by rw [List.length_map, List.length_map, hlen]) fun i hi hi' => ?_
  rw [List.length_map] at hi hi'
  have hkey : entries'[i].1 = entries[i].1 := by
    have hkey := congrArg (·[i]?) hsame
    simpa only [List.getElem?_map, List.getElem?_eq_getElem hi, List.getElem?_eq_getElem hi',
      Option.map_some, Option.some.injEq] using hkey
  have hget := of_entries_tree_get hkeys (List.getElem_mem hi)
  have hget' := of_entries_tree_get (hsame ▸ hkeys) (List.getElem_mem hi')
  rw [hkey, ← h, hget] at hget'
  rw [List.getElem_map, List.getElem_map]
  exact Option.some.inj hget'

theorem mem_foldl_insert {e : String × Value} : ∀ (entries acc : List (String × Value)),
    e ∈ entries.foldl (fun acc e => insert acc e.1 e.2) acc → e ∈ entries ∨ e ∈ acc
  | [], _, h => Or.inr h
  | f :: entries, acc, h => by
    rcases mem_foldl_insert entries (insert acc f.1 f.2) h with h | h
    · exact Or.inl (List.mem_cons_of_mem f h)
    · rcases mem_insert h with rfl | h
      · exact Or.inl List.mem_cons_self
      · exact Or.inr h

theorem of_entries_valid {entries : List (String × Value)} (h : ∀ e ∈ entries, e.2.tree.Valid) :
    (of_entries entries).tree.Valid := by
  rw [of_entries, tree_object, fields_valid_iff, List.forall_mem_map]
  intro e he
  rcases mem_foldl_insert entries [] he with he | he
  · exact h e he
  · exact absurd he List.not_mem_nil

/-- A value whose numbers are not negative and have no fraction. -/
inductive Plain : Value → Prop where
  | bool (b : Bool) : Plain (.bool b)
  | string (s : String) : Plain (.string s)
  | pos_int (n : UInt64) : Plain (.number (.pos_int n))
  | strings (l : List String) : Plain (.array (l.map .string))
  | of_entries {entries : List (String × Value)} (h : ∀ e ∈ entries, Plain e.2) :
    Plain (of_entries entries)

theorem pos_int_tree (n : UInt64) : (Value.number (.pos_int n)).tree = nat n.toNat := by
  rw [tree, number_text, nat, Nat.toString_eq_repr, Nat.toList_repr]

theorem Plain.valid {v : Value} (h : Plain v) : v.tree.Valid := by
  induction h with
  | bool b =>
    rw [tree]
    exact bool_valid b
  | string s =>
    rw [tree]
    exact str_valid s
  | pos_int n =>
    rw [pos_int_tree]
    exact nat_valid n.toNat
  | strings l =>
    rw [tree, items_tree_eq, array_valid_iff, List.map_map, List.forall_mem_map]
    intro s _
    show (Value.string s).tree.Valid
    rw [tree]
    exact str_valid s
  | of_entries _ ih => exact of_entries_valid ih

end Value

/-! ### The reader -/

/-- What a receiver reads in a body. -/
def read_json (body : Bytes) : Option Tree := (utf8_strict body).bind JsonText.read

theorem read_json_string {t : Tree} (h : t.Valid) : JsonText.read (json_text t).toList = some t := by
  rw [json_text, String.toList_ofList, read_print serde_escape h]

theorem read_plain {v : Value} (h : v.Plain) : JsonText.read v.to_string.toList = some v.tree := by
  rw [Value.to_string_eq]
  exact read_json_string h.valid

/-- The text of a value tells its document. -/
theorem plain_text_inj {v w : Value} (hv : v.Plain) (hw : w.Plain) (h : v.to_string = w.to_string) :
    v.tree = w.tree := by
  rw [Value.to_string_eq, Value.to_string_eq, json_text, json_text, String.ofList_inj] at h
  exact JsonText.print_injective serde_escape hv.valid hw.valid h

theorem read_json_text {t : Tree} (h : t.Valid) : read_json (utf8_bytes (json_text t)) = some t := by
  rw [read_json, utf8_strict_utf8_bytes, Option.bind_some, json_text, String.toList_ofList,
    read_print serde_escape h]

end AgentTraceGateway
