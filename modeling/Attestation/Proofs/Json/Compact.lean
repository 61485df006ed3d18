import Attestation.Proofs.Json.Layout

/-!
# Compact JSON is read back

* `Layout.tight` : the layout without a blank, which is that of compact text;
* `backslash_not_mem_compact` : where no string has to be escaped, there is no escape in the text;
* `read?_compactText` : a tidy value is read back from its compact text.
-/

namespace Attestation.Json

/-! ## Texts without escapes -/

theorem mem_compactItems {vs : List Datum} {c : Char} (hc : c ∈ compactItems vs) :
    c = ',' ∨ ∃ v ∈ vs, c ∈ compact v := by
  induction vs with
  | nil => cases hc
  | cons v vs ih =>
    cases vs with
    | nil => exact .inr ⟨v, List.mem_cons_self, hc⟩
    | cons w ws =>
      simp only [compactItems, List.mem_append, List.mem_cons] at hc
      rcases hc with hv | hcomma | hws
      · exact .inr ⟨v, List.mem_cons_self, hv⟩
      · exact .inl hcomma
      · exact (ih hws).imp_right fun hx => hx.imp fun x h => ⟨List.mem_cons_of_mem _ h.1, h.2⟩

theorem mem_compactMembers {ms : Members} {c : Char} (hc : c ∈ compactMembers ms) :
    c = ',' ∨ c = ':' ∨ ∃ m ∈ ms, c ∈ quoted m.1 ∨ c ∈ compact m.2 := by
  induction ms with
  | nil => cases hc
  | cons m ms ih =>
    cases ms with
    | nil =>
      simp only [compactMembers, List.mem_append, List.mem_cons] at hc
      rcases hc with hname | hcolon | hm
      · exact .inr (.inr ⟨m, List.mem_cons_self, .inl hname⟩)
      · exact .inr (.inl hcolon)
      · exact .inr (.inr ⟨m, List.mem_cons_self, .inr hm⟩)
    | cons n ns =>
      simp only [compactMembers, List.mem_append, List.mem_cons] at hc
      rcases hc with (hname | hcolon | hm) | hcomma | hns
      · exact .inr (.inr ⟨m, List.mem_cons_self, .inl hname⟩)
      · exact .inr (.inl hcolon)
      · exact .inr (.inr ⟨m, List.mem_cons_self, .inr hm⟩)
      · exact .inl hcomma
      · exact (ih hns).imp_right (Or.imp_right fun hx => hx.imp fun x h => ⟨List.mem_cons_of_mem _ h.1, h.2⟩)

theorem backslash_not_mem_quoted {s : String} (h : Unescaped s) : '\\' ∉ quoted s := by
  rw [quoted_of_unescaped h]
  intro hmem
  simp only [List.cons_append, List.mem_cons, List.mem_append, List.not_mem_nil, or_false] at hmem
  rcases hmem with hquote | hs | hquote
  · cases hquote
  · exact (h _ hs).2.1 rfl
  · cases hquote

/-- Where no string has to be escaped, there is no escape in the text. -/
theorem backslash_not_mem_compact {levels : Nat} {v : Datum} (hv : Tidy Unescaped levels v) : '\\' ∉ compact v := by
  induction hv with
  | null => decide
  | boolean b => cases b <;> decide
  | number h =>
    intro hmem
    cases Text.Decimal.isDigit_toDigits hmem
  | text h => exact backslash_not_mem_quoted h
  | list h ih =>
    intro hmem
    simp only [compact, List.cons_append, List.mem_cons, List.mem_append, List.not_mem_nil, or_false] at hmem
    rcases hmem with hopen | hitems | hclose
    · cases hopen
    · obtain hcomma | ⟨v, hv, hmem⟩ := mem_compactItems hitems
      · cases hcomma
      · exact ih v hv hmem
    · cases hclose
  | table hnames hp h ih =>
    intro hmem
    simp only [compact, List.cons_append, List.mem_cons, List.mem_append, List.not_mem_nil, or_false] at hmem
    rcases hmem with hopen | hmembers | hclose
    · cases hopen
    · obtain hcomma | hcolon | ⟨m, hm, hname | hvalue⟩ := mem_compactMembers hmembers
      · cases hcomma
      · cases hcolon
      · exact backslash_not_mem_quoted (hp m hm) hname
      · exact ih m hm hvalue
    · cases hclose

/-! ## Members -/

theorem compactMembers_eq (ms : Members) :
    compactMembers ms = [','].intercalate (ms.map fun m => quoted m.1 ++ ':' :: compact m.2) := by
  induction ms with
  | nil => rfl
  | cons m ms ih =>
    cases ms with
    | nil => simp [compactMembers]
    | cons n ns =>
      rw [compactMembers, ih]
      simp

/-! ## Reading -/

/-- No blank anywhere. -/
def Layout.tight : Layout := ⟨fun _ => [], [], fun _ => blank_nil, blank_nil⟩

theorem writeItems_tight {level : Nat} {vs : List Datum} (h : ∀ v ∈ vs, Layout.tight.write level v = compact v) :
    Layout.tight.writeItems level vs = compactItems vs := by
  induction vs with
  | nil => rfl
  | cons v vs ih =>
    have hv := h v List.mem_cons_self
    cases vs with
    | nil => exact hv
    | cons w ws => simp [Layout.writeItems, compactItems, Layout.tight, ← ih fun x hx => h x (by simp [hx]), ← hv]

theorem writeMembers_tight {level : Nat} {ms : Members}
    (h : ∀ m ∈ ms, Layout.tight.write level m.2 = compact m.2) :
    Layout.tight.writeMembers level ms = compactMembers ms := by
  induction ms with
  | nil => rfl
  | cons m ms ih =>
    have hm := h m List.mem_cons_self
    cases ms with
    | nil => simp [Layout.writeMembers, compactMembers, Layout.tight, ← hm]
    | cons x xs => simp [Layout.writeMembers, compactMembers, Layout.tight, ← ih fun y hy => h y (by simp [hy]), ← hm]

theorem write_tight {P : String → Prop} {levels : Nat} {v : Datum} (hv : Tidy P levels v) (level : Nat) :
    Layout.tight.write level v = compact v := by
  induction hv generalizing level with
  | null | boolean b | number h | text h => rfl
  | @list _ items h ih =>
    cases items with
    | nil => rfl
    | cons v vs => simp [Layout.write, compact, Layout.tight, ← writeItems_tight fun w hw => ih w hw (level + 1)]
  | @table _ members hnames hp h ih =>
    cases members with
    | nil => rfl
    | cons m ms => simp [Layout.write, compact, Layout.tight, ← writeMembers_tight fun x hx => ih x hx (level + 1)]

theorem document_compactText {P : String → Prop} {levels : Nat} {v : Datum} (hv : Tidy P levels v)
    (hlevels : levels < depthLimit) : Document v (compactText v) := by
  have hspells : Spells levels v (Layout.tight.write 0 v) := Layout.spells_write hv 0
  have hdocument := Document.spelled hlevels blank_nil hspells blank_nil
  rwa [write_tight hv, List.nil_append, List.append_nil] at hdocument

/-- **Compact text is read back** as the value that it was written for. -/
theorem read?_compactText {P : String → Prop} {levels : Nat} {v : Datum} (hv : Tidy P levels v)
    (hlevels : levels < depthLimit) : read? (compactText v) = some v :=
  read?_of_document (document_compactText hv hlevels)

end Attestation.Json
