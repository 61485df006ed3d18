import Attestation.Proofs.Json.Strings

/-!
# The grammar of JSON

* `Spells levels v cs` : the value `v`, of at most `levels` nested containers, may be written as `cs`: with any blanks
  between its parts, and each string in any of its ways; of several members with one name the last counts;
* `Document v text` : the text is a document with the value `v`, and blanks around it;
* `readValue_of_spells`, `read?_of_document` : what the grammar allows is read.

Of the numbers only those without sign, fraction and exponent are part of it, up to 64 bits.
-/

namespace Attestation

namespace Members

theorem put_of_not_mem {ms : Members} {name : String} (h : name ∉ ms.map Prod.fst) (value : Datum) :
    ms.put name value = ms ++ [(name, value)] := by
  induction ms with
  | nil => rfl
  | cons m ms ih =>
    rw [List.map_cons, List.mem_cons, not_or] at h
    rw [put, if_neg (Ne.symm h.1), ih h.2, List.cons_append]

/-- The members with further ones put behind or in place of them. -/
def putAll (ms more : Members) : Members := more.foldl (fun acc m => acc.put m.1 m.2) ms

theorem putAll_of_nodup {ms more : Members} (h : ((ms ++ more).map Prod.fst).Nodup) : ms.putAll more = ms ++ more := by
  induction more generalizing ms with
  | nil => exact (List.append_nil ms).symm
  | cons m more ih =>
    have hm : m.1 ∉ ms.map Prod.fst := by
      rw [List.map_append, List.map_cons, List.nodup_middle, List.nodup_cons, List.mem_append, not_or] at h
      exact h.1.1
    have hput : ms.put m.1 m.2 = ms ++ [m] := put_of_not_mem hm m.2
    show (ms.put m.1 m.2).putAll more = _
    rw [hput, ih (by rwa [List.append_assoc]), List.append_assoc, List.singleton_append]

end Members

theorem Text.after?_append (word : String) (rest : List Char) :
    Text.after? word (word.toList ++ rest) = some rest := by
  rw [Text.after?, if_pos (by simp), ← String.length_toList, List.drop_left]

namespace Json

/-! ## Blanks -/

def Blank (cs : List Char) : Prop := ∀ c ∈ cs, isBlank c = true

theorem blank_nil : Blank [] := List.forall_mem_nil _

theorem skipBlanks_append {blanks : List Char} (h : Blank blanks) (rest : List Char) :
    skipBlanks (blanks ++ rest) = skipBlanks rest := by
  rw [skipBlanks, List.dropWhile_append_of_pos h, skipBlanks]

theorem skipBlanks_cons {c : Char} (hc : isBlank c = false) (rest : List Char) :
    skipBlanks (c :: rest) = c :: rest := by
  rw [skipBlanks, List.dropWhile_cons_of_neg (by simp [hc])]

/-- Blanks in front of a character that is none. -/
theorem skipBlanks_append_cons {blanks : List Char} (h : Blank blanks) {c : Char} (hc : isBlank c = false)
    (rest : List Char) : skipBlanks (blanks ++ c :: rest) = c :: rest := by
  rw [skipBlanks_append h, skipBlanks_cons hc]

theorem skipBlanks_of_blank {blanks : List Char} (h : Blank blanks) : skipBlanks blanks = [] := by
  rw [← List.append_nil blanks, skipBlanks_append h]
  rfl

theorem ends_append {blanks : List Char} (h : Blank blanks) {rest : List Char} (hrest : Ends rest) :
    Ends (blanks ++ rest) := by
  cases blanks with
  | nil => exact hrest
  | cons b bs =>
    intro c hc
    obtain rfl : b = c := by simpa using hc
    have hb : isBlank b = true := h b List.mem_cons_self
    simp only [isBlank, Bool.or_eq_true, decide_eq_true_eq] at hb
    rcases hb with ((rfl | rfl) | rfl) | rfl <;> decide

/-- The text begins with a character that opens a value. -/
def Opens (cs : List Char) : Prop := ∃ c rest, cs = c :: rest ∧ isBlank c = false ∧ c ≠ ']'

theorem Opens.append {cs : List Char} (h : Opens cs) (rest : List Char) : Opens (cs ++ rest) := by
  obtain ⟨c, tail, rfl, hc⟩ := h
  exact ⟨c, tail ++ rest, rfl, hc⟩

theorem skipBlanks_opens {blanks cs : List Char} (hblanks : Blank blanks) (h : Opens cs) (rest : List Char) :
    skipBlanks (blanks ++ (cs ++ rest)) = cs ++ rest := by
  obtain ⟨c, tail, rfl, hblank, -⟩ := h
  exact skipBlanks_append_cons hblanks hblank (tail ++ rest)

/-! ## Values -/

/-- An item of a list as it is written: the text of its value, with blanks around it. -/
structure Item where
  value : Datum
  before : List Char
  text : List Char
  behind : List Char
  blank_before : Blank before
  blank_behind : Blank behind

def Item.written (i : Item) : List Char := i.before ++ i.text ++ i.behind

/-- A member of a table as it is written: its name with blanks around it, a colon, and its value as that of an item. -/
structure Member where
  name : String
  before : List Char
  nameText : List Char
  behind : List Char
  item : Item
  blank_before : Blank before
  spells_name : SpellsString name nameText
  blank_behind : Blank behind

namespace Member

def written (m : Member) : List Char := m.before ++ m.nameText ++ m.behind ++ ':' :: m.item.written

def pair (m : Member) : String × Datum := (m.name, m.item.value)

end Member

/-- What stands between the brackets of a container: pieces with commas between them, and blanks. -/
def between (pieces : List (List Char)) (blanks : List Char) : List Char := [','].intercalate pieces ++ blanks

/-- The ways to write a value of at most so many nested containers. -/
inductive Spells : (levels : Nat) → Datum → List Char → Prop where
  | null {levels : Nat} : Spells levels .null "null".toList
  | boolean {levels : Nat} (b : Bool) : Spells levels (.boolean b) (if b then "true" else "false").toList
  | number {levels n : Nat} (h : n ≤ maxSignificand) : Spells levels (.ofNat n) (Nat.toDigits 10 n)
  | text {levels : Nat} {s : String} {cs : List Char} (h : SpellsString s cs) : Spells levels (.text s) cs
  | list {levels : Nat} {items : List Item} {blanks : List Char} (hblanks : Blank blanks)
      (h : ∀ i ∈ items, Spells levels i.value i.text) :
      Spells (levels + 1) (.list (items.map Item.value)) ('[' :: between (items.map Item.written) blanks ++ [']'])
  | table {levels : Nat} {members : List Member} {blanks : List Char} (hblanks : Blank blanks)
      (h : ∀ m ∈ members, Spells levels m.item.value m.item.text) :
      Spells (levels + 1) (.table (Members.putAll [] (members.map Member.pair)))
        ('{' :: between (members.map Member.written) blanks ++ ['}'])

theorem opens_of_spells {levels : Nat} {v : Datum} {cs : List Char} (h : Spells levels v cs) : Opens cs := by
  cases h with
  | null => exact ⟨'n', _, rfl, rfl, by decide⟩
  | boolean b =>
    cases b
    · exact ⟨'f', _, rfl, rfl, by decide⟩
    · exact ⟨'t', _, rfl, rfl, by decide⟩
  | @number _ n h =>
    obtain ⟨d, ds, hds⟩ := List.exists_cons_of_ne_nil (Nat.toDigits_ne_nil (n := n) (b := 10))
    have hdigit : d.isDigit = true := Text.Decimal.isDigit_toDigits (n := n) (by simp [hds])
    have hne (c : Char) (hc : c.isDigit = false) : d ≠ c := Text.Decimal.ne_of_isDigit hdigit hc
    exact ⟨d, ds, hds, by simp [isBlank, hne], hne ']' rfl⟩
  | text h =>
    obtain ⟨pieces, -, rfl⟩ := h
    exact ⟨'"', _, rfl, rfl, by decide⟩
  | list => exact ⟨'[', _, rfl, rfl, by decide⟩
  | table => exact ⟨'{', _, rfl, rfl, by decide⟩

/-! ## Reading containers -/

/-- The value is read from the text, in front of anything that does not go on with a number. -/
def ReadsAs (depth : Nat) (text : List Char) (v : Datum) : Prop :=
  ∀ fuel rest, 2 * text.length ≤ fuel → Ends rest → readValue depth fuel (text ++ rest) = some (v, rest)

theorem between_single (piece blanks : List Char) : between [piece] blanks = piece ++ blanks := by
  simp [between]

theorem between_cons (piece next : List Char) (pieces : List (List Char)) (blanks : List Char) :
    between (piece :: next :: pieces) blanks = piece ++ ',' :: between (next :: pieces) blanks := by
  simp [between]

theorem exists_between_cons (piece : List Char) (pieces : List (List Char)) (blanks : List Char) :
    ∃ tail, between (piece :: pieces) blanks = piece ++ tail := by
  cases pieces with
  | nil => exact ⟨blanks, between_single piece blanks⟩
  | cons next pieces => exact ⟨_, between_cons piece next pieces blanks⟩

section Items
variable {depth k : Nat} {i : Item}

theorem Item.skipBlanks_written (hopens : Opens i.text) (rest : List Char) :
    skipBlanks (i.written ++ rest) = i.text ++ (i.behind ++ rest) := by
  rw [Item.written, List.append_assoc, List.append_assoc, skipBlanks_opens i.blank_before hopens]

theorem Item.readValue_written (hread : ReadsAs depth i.text i.value) (hopens : Opens i.text)
    (hfuel : 2 * i.written.length ≤ k) {rest : List Char} (hrest : Ends rest) :
    readValue depth k (skipBlanks (i.written ++ rest)) = some (i.value, i.behind ++ rest) := by
  rw [i.skipBlanks_written hopens]
  refine hread k _ ?_ (ends_append i.blank_behind hrest)
  simp only [Item.written, List.length_append] at hfuel
  omega

theorem readItems_last (hread : ReadsAs depth i.text i.value) (hopens : Opens i.text)
    (hfuel : 2 * i.written.length ≤ k) {blanks : List Char} (hblanks : Blank blanks) (rest : List Char) :
    readItems depth (k + 1) (skipBlanks (i.written ++ (blanks ++ ']' :: rest))) = some ([i.value], rest) := by
  have hvalue := i.readValue_written hread hopens hfuel (ends_append hblanks (ends_cons (c := ']') (by simp) rest))
  simp only [readItems, hvalue, skipBlanks_append i.blank_behind, skipBlanks_append_cons hblanks (c := ']') rfl]

theorem readItems_next (hread : ReadsAs depth i.text i.value) (hopens : Opens i.text)
    (hfuel : 2 * i.written.length ≤ k) (rest : List Char) :
    readItems depth (k + 1) (skipBlanks (i.written ++ ',' :: rest)) =
      (readItems depth k (skipBlanks rest)).map fun p => (i.value :: p.1, p.2) := by
  have hvalue := i.readValue_written hread hopens hfuel (ends_cons (c := ',') (by simp) rest)
  simp only [readItems, hvalue, skipBlanks_append_cons i.blank_behind (c := ',') rfl]

end Items

theorem readItems_of_spells {depth : Nat} {items : List Item} (hne : items ≠ [])
    (hread : ∀ i ∈ items, ReadsAs depth i.text i.value) (hopens : ∀ i ∈ items, Opens i.text) {blanks : List Char}
    (hblanks : Blank blanks) {fuel : Nat} (hfuel : 2 * (between (items.map Item.written) blanks).length < fuel)
    (rest : List Char) :
    readItems depth fuel (skipBlanks (between (items.map Item.written) blanks ++ ']' :: rest)) =
      some (items.map Item.value, rest) := by
  induction items generalizing fuel with
  | nil => exact absurd rfl hne
  | cons i items ih =>
    obtain ⟨k, rfl⟩ := Nat.exists_eq_succ_of_ne_zero (Nat.ne_of_gt (Nat.zero_lt_of_lt hfuel))
    have hi := hread i List.mem_cons_self
    have ho := hopens i List.mem_cons_self
    cases items with
    | nil =>
      rw [List.map_singleton, between_single, List.length_append] at hfuel
      rw [List.map_singleton, between_single, List.append_assoc, readItems_last hi ho (by omega) hblanks]
      rfl
    | cons j items =>
      rw [List.map_cons, List.map_cons, between_cons, List.length_append, List.length_cons] at hfuel
      have hlength : 2 * (between ((j :: items).map Item.written) blanks).length < k := by
        rw [List.map_cons]
        omega
      have hnext := ih (by simp) (fun x hx => hread x (List.mem_cons_of_mem i hx))
        (fun x hx => hopens x (List.mem_cons_of_mem i hx)) hlength
      rw [List.map_cons] at hnext
      rw [List.map_cons, List.map_cons, between_cons, List.append_assoc, List.cons_append,
        readItems_next hi ho (by omega), hnext]
      rfl

section Members
variable {depth k : Nat} {acc : Members} {m : Member}

theorem Member.opens_written (m : Member) (rest : List Char) : ∃ cs, skipBlanks (m.written ++ rest) = '"' :: cs := by
  obtain ⟨pieces, -, hname⟩ := m.spells_name
  rw [Member.written, List.append_assoc, List.append_assoc, List.append_assoc, skipBlanks_append m.blank_before, hname]
  exact ⟨_, skipBlanks_cons rfl _⟩

/-- One member up to what follows its value. -/
theorem Member.read_written (hread : ReadsAs depth m.item.text m.item.value) (hopens : Opens m.item.text)
    (hfuel : 2 * m.written.length ≤ k) {rest : List Char} (hrest : Ends rest) :
    ∃ cs, skipBlanks (m.written ++ rest) = '"' :: cs ∧
      readString k cs = some (m.name, m.behind ++ ':' :: (m.item.written ++ rest)) ∧
      readValue depth k (skipBlanks (m.item.written ++ rest)) = some (m.item.value, m.item.behind ++ rest) := by
  simp only [Member.written, List.length_append, List.length_cons] at hfuel
  obtain ⟨cs, hcs, hname⟩ := readString_of_spells m.spells_name (show m.nameText.length ≤ k by omega)
    (m.behind ++ ':' :: (m.item.written ++ rest))
  refine ⟨cs, ?_, hname, m.item.readValue_written hread hopens (by omega) hrest⟩
  rw [← hcs, Member.written]
  simp only [List.append_assoc, List.cons_append]
  rw [skipBlanks_append m.blank_before, hcs, skipBlanks_cons rfl]

theorem readMembers_last (hread : ReadsAs depth m.item.text m.item.value) (hopens : Opens m.item.text)
    (hfuel : 2 * m.written.length ≤ k) {blanks : List Char} (hblanks : Blank blanks) (rest : List Char) :
    readMembers depth (k + 1) acc (skipBlanks (m.written ++ (blanks ++ '}' :: rest))) =
      some (acc.put m.name m.item.value, rest) := by
  obtain ⟨cs, hcs, hname, hvalue⟩ :=
    Member.read_written hread hopens hfuel (ends_append hblanks (ends_cons (c := '}') (by simp) rest))
  simp only [hcs, readMembers, hname, skipBlanks_append_cons m.blank_behind (c := ':') rfl, hvalue,
    skipBlanks_append m.item.blank_behind, skipBlanks_append_cons hblanks (c := '}') rfl]

theorem readMembers_next (hread : ReadsAs depth m.item.text m.item.value) (hopens : Opens m.item.text)
    (hfuel : 2 * m.written.length ≤ k) (rest : List Char) :
    readMembers depth (k + 1) acc (skipBlanks (m.written ++ ',' :: rest)) =
      readMembers depth k (acc.put m.name m.item.value) (skipBlanks rest) := by
  obtain ⟨cs, hcs, hname, hvalue⟩ := Member.read_written hread hopens hfuel (ends_cons (c := ',') (by simp) rest)
  simp only [hcs, readMembers, hname, skipBlanks_append_cons m.blank_behind (c := ':') rfl, hvalue,
    skipBlanks_append_cons m.item.blank_behind (c := ',') rfl]

end Members

theorem readMembers_of_spells {depth : Nat} {members : List Member} (hne : members ≠ [])
    (hread : ∀ m ∈ members, ReadsAs depth m.item.text m.item.value) (hopens : ∀ m ∈ members, Opens m.item.text)
    {acc : Members} {blanks : List Char} (hblanks : Blank blanks) {fuel : Nat}
    (hfuel : 2 * (between (members.map Member.written) blanks).length < fuel) (rest : List Char) :
    readMembers depth fuel acc (skipBlanks (between (members.map Member.written) blanks ++ '}' :: rest)) =
      some (acc.putAll (members.map Member.pair), rest) := by
  induction members generalizing acc fuel with
  | nil => exact absurd rfl hne
  | cons m members ih =>
    obtain ⟨k, rfl⟩ := Nat.exists_eq_succ_of_ne_zero (Nat.ne_of_gt (Nat.zero_lt_of_lt hfuel))
    have hm := hread m List.mem_cons_self
    have ho := hopens m List.mem_cons_self
    cases members with
    | nil =>
      rw [List.map_singleton, between_single, List.length_append] at hfuel
      rw [List.map_singleton, between_single, List.append_assoc, readMembers_last hm ho (by omega) hblanks]
      rfl
    | cons n members =>
      rw [List.map_cons, List.map_cons, between_cons, List.length_append, List.length_cons] at hfuel
      have hlength : 2 * (between ((n :: members).map Member.written) blanks).length < k := by
        rw [List.map_cons]
        omega
      have hnext : readMembers depth k (acc.put m.name m.item.value)
          (skipBlanks (between ((n :: members).map Member.written) blanks ++ '}' :: rest)) =
            some ((acc.put m.name m.item.value).putAll ((n :: members).map Member.pair), rest) :=
        ih (by simp) (fun x hx => hread x (List.mem_cons_of_mem m hx))
          (fun x hx => hopens x (List.mem_cons_of_mem m hx)) hlength
      rw [List.map_cons] at hnext
      rw [List.map_cons, List.map_cons, between_cons, List.append_assoc, List.cons_append,
        readMembers_next hm ho (by omega), hnext]
      rfl

/-! ## Reading values -/

/-- Digits open a number. -/
theorem readValue_digits {depth fuel : Nat} (n : Nat) (rest : List Char) :
    readValue depth (fuel + 1) (Nat.toDigits 10 n ++ rest) = readNumber (Nat.toDigits 10 n ++ rest) := by
  obtain ⟨d, ds, hds⟩ := List.exists_cons_of_ne_nil (Nat.toDigits_ne_nil (n := n) (b := 10))
  have hdigit : d.isDigit = true := Text.Decimal.isDigit_toDigits (n := n) (by simp [hds])
  rw [hds, List.cons_append, readValue.eq_def]
  simp only
  split
  case h_7 => rfl
  all_goals
    next heq => exact absurd (List.cons.inj heq).1 (Text.Decimal.ne_of_isDigit hdigit rfl)

theorem readValue_list {depth fuel : Nat} (hdepth : 1 < depth) {cs : List Char} (h : Opens (skipBlanks cs)) :
    readValue depth (fuel + 1) ('[' :: cs) =
      (readItems (depth - 1) fuel (skipBlanks cs)).map fun p => (.list p.1, p.2) := by
  obtain ⟨c, tail, hcs, -, hclose⟩ := h
  rw [readValue, if_neg (Nat.not_le.2 hdepth), hcs]
  split
  · next heq => exact absurd (List.cons.inj heq).1 hclose
  · rfl

theorem readValue_table {depth fuel : Nat} (hdepth : 1 < depth) {cs tail : List Char}
    (h : skipBlanks cs = '"' :: tail) :
    readValue depth (fuel + 1) ('{' :: cs) =
      (readMembers (depth - 1) fuel [] (skipBlanks cs)).map fun p => (.table p.1, p.2) := by
  rw [readValue, if_neg (Nat.not_le.2 hdepth), h]
  rfl

/-- **What the grammar allows is read** as the value that it is written for. -/
theorem readValue_of_spells {levels : Nat} {v : Datum} {cs : List Char} (h : Spells levels v cs) {depth : Nat}
    (hdepth : levels < depth) : ReadsAs depth cs v := by
  induction h generalizing depth with
  | null =>
    intro fuel rest hfuel _
    obtain ⟨k, rfl⟩ := Nat.exists_eq_add_of_le' (Nat.le_trans (by decide : 1 ≤ 8) hfuel)
    exact congrArg (Option.map (Datum.null, ·)) (Text.after?_append "null" rest)
  | boolean b =>
    intro fuel rest hfuel _
    cases b
    · obtain ⟨k, rfl⟩ := Nat.exists_eq_add_of_le' (Nat.le_trans (by decide : 1 ≤ 10) hfuel)
      exact congrArg (Option.map (Datum.boolean false, ·)) (Text.after?_append "false" rest)
    · obtain ⟨k, rfl⟩ := Nat.exists_eq_add_of_le' (Nat.le_trans (by decide : 1 ≤ 8) hfuel)
      exact congrArg (Option.map (Datum.boolean true, ·)) (Text.after?_append "true" rest)
  | @number _ n h =>
    intro fuel rest hfuel hrest
    have hpos : 0 < (Nat.toDigits 10 n).length := Nat.length_toDigits_pos
    obtain ⟨k, rfl⟩ := Nat.exists_eq_add_of_le' (show 1 ≤ fuel by omega)
    rw [readValue_digits, readNumber_toDigits h hrest]
  | @text _ s cs h =>
    intro fuel rest hfuel _
    obtain ⟨tail, htail⟩ : ∃ tail, cs = '"' :: tail := by
      obtain ⟨pieces, -, rfl⟩ := h
      exact ⟨_, rfl⟩
    have hpos : 0 < cs.length := by rw [htail]; simp
    obtain ⟨k, rfl⟩ := Nat.exists_eq_add_of_le' (show 1 ≤ fuel by omega)
    obtain ⟨inside, hinside, hread⟩ := readString_of_spells h (show cs.length ≤ k by omega) rest
    rw [hinside]
    simp only [readValue, hread, Option.map_some]
  | @list _ items blanks hblanks h ih =>
    intro fuel rest hfuel _
    rw [List.length_append, List.length_cons, List.length_singleton] at hfuel
    obtain ⟨k, rfl⟩ := Nat.exists_eq_add_of_le' (show 1 ≤ fuel by omega)
    rw [List.cons_append, List.cons_append, List.append_assoc, List.singleton_append]
    cases items with
    | nil =>
      have hnil : between (List.map Item.written []) blanks = blanks := rfl
      rw [hnil, readValue, if_neg (by omega), skipBlanks_append_cons hblanks rfl]
      rfl
    | cons i items =>
      have hopens : ∀ x ∈ i :: items, Opens x.text := fun x hx => opens_of_spells (h x hx)
      have hitems := readItems_of_spells (by simp) (fun x hx => ih x hx (Nat.lt_sub_of_add_lt hdepth)) hopens hblanks
        (show _ < k by omega) rest
      obtain ⟨tail, htail⟩ := exists_between_cons i.written (items.map Item.written) blanks
      have hfirst : Opens (skipBlanks (between ((i :: items).map Item.written) blanks ++ ']' :: rest)) := by
        rw [List.map_cons, htail, List.append_assoc, i.skipBlanks_written (hopens i List.mem_cons_self)]
        exact (hopens i List.mem_cons_self).append _
      rw [readValue_list (by omega) hfirst, hitems]
      rfl
  | @table _ members blanks hblanks h ih =>
    intro fuel rest hfuel _
    rw [List.length_append, List.length_cons, List.length_singleton] at hfuel
    obtain ⟨k, rfl⟩ := Nat.exists_eq_add_of_le' (show 1 ≤ fuel by omega)
    rw [List.cons_append, List.cons_append, List.append_assoc, List.singleton_append]
    cases members with
    | nil =>
      have hnil : between (List.map Member.written []) blanks = blanks := rfl
      rw [hnil, readValue, if_neg (by omega), skipBlanks_append_cons hblanks rfl]
      rfl
    | cons m members =>
      have hmembers : readMembers (depth - 1) k []
          (skipBlanks (between ((m :: members).map Member.written) blanks ++ '}' :: rest)) =
            some (Members.putAll [] ((m :: members).map Member.pair), rest) :=
        readMembers_of_spells (by simp) (fun x hx => ih x hx (Nat.lt_sub_of_add_lt hdepth))
          (fun x hx => opens_of_spells (h x hx)) hblanks (by omega) rest
      obtain ⟨tail, htail⟩ := exists_between_cons m.written (members.map Member.written) blanks
      obtain ⟨cs, hfirst⟩ : ∃ cs, skipBlanks (between ((m :: members).map Member.written) blanks ++ '}' :: rest) =
          '"' :: cs := by
        rw [List.map_cons, htail, List.append_assoc]
        exact m.opens_written _
      rw [readValue_table (by omega) hfirst, hmembers]
      rfl

/-! ## Documents -/

/-- The text is that of the value, with blanks around it. -/
inductive Document : Datum → String → Prop where
  | spelled {levels : Nat} {v : Datum} {before cs behind : List Char} (hlevels : levels < depthLimit)
      (hbefore : Blank before) (h : Spells levels v cs) (hbehind : Blank behind) :
      Document v (String.ofList (before ++ cs ++ behind))

/-- **Documents are read**, in whatever way they are written. -/
theorem read?_of_document {v : Datum} {text : String} (h : Document v text) : read? text = some v := by
  obtain @⟨levels, v, before, cs, behind, hlevels, hbefore, hspells, hbehind⟩ := h
  have hskip : skipBlanks (before ++ cs ++ behind) = cs ++ behind := by
    rw [List.append_assoc, skipBlanks_opens hbefore (opens_of_spells hspells)]
  have hends : Ends behind := by simpa using ends_append hbehind ends_nil
  have hread := readValue_of_spells hspells hlevels (2 * (cs ++ behind).length + 2) behind
    (by rw [List.length_append]; omega) hends
  unfold read?
  rw [String.toList_ofList, hskip]
  simp only [hread, skipBlanks_of_blank hbehind]
  rfl

end Json

end Attestation
