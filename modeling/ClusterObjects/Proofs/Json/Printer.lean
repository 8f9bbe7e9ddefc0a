import ClusterObjects.Json.Printer
import ClusterObjects.Proofs.Json.WellFormed

/-! # Plain texts

The compact text of a value holds no control character, whatever its keys and strings
hold: these are escaped, and numbers, punctuation and the words of the language have
none. So the text stands on one line.
-/

namespace ClusterObjects

namespace Text

/-- The text holds no control character, and in particular no line break. -/
def Plain (text : List Char) : Prop := ∀ c ∈ text, 32 ≤ c.toNat

instance (text : List Char) : Decidable (Plain text) :=
  List.decidableBAll (fun c : Char => 32 ≤ c.toNat) text

@[simp] theorem plain_nil : Plain [] := List.forall_mem_nil _

@[simp] theorem plain_cons {c : Char} {text : List Char} :
    Plain (c :: text) ↔ 32 ≤ c.toNat ∧ Plain text := List.forall_mem_cons

@[simp] theorem plain_append {front back : List Char} :
    Plain (front ++ back) ↔ Plain front ∧ Plain back := List.forall_mem_append

theorem Plain.take {text : List Char} (h : Plain text) (n : Nat) : Plain (text.take n) :=
  fun c hc => h c (List.mem_of_mem_take hc)

theorem Plain.drop {text : List Char} (h : Plain text) (n : Nat) : Plain (text.drop n) :=
  fun c hc => h c (List.mem_of_mem_drop hc)

theorem plain_replicate {c : Char} (h : 32 ≤ c.toNat) (n : Nat) : Plain (List.replicate n c) :=
  fun _ hc => List.eq_of_mem_replicate hc ▸ h

theorem plain_decimal (n : Nat) : Plain (decimal n) := by
  intro c hc
  have hdigit := isDigit_of_mem_decimal hc
  simp only [Char.isDigit, Bool.and_eq_true, decide_eq_true_eq] at hdigit
  have hlow : 48 ≤ c.toNat := hdigit.1
  omega

theorem plain_signedDecimal (n : Int) : Plain (signedDecimal n) := by
  cases n with
  | ofNat n => exact plain_decimal n
  | negSucc n => simpa [signedDecimal] using plain_decimal (n + 1)

theorem le_toNat_hexDigit (n : Nat) : 32 ≤ (hexDigit n).toNat := by
  have hall : ∀ n : Fin 16, 32 ≤ (Nat.digitChar n).toNat := by decide
  exact hall ⟨n % 16, Nat.mod_lt n (by decide)⟩

end Text

open Text

namespace Double

theorem plain_positional {digits : List Char} (h : Plain digits) (exponent : Int) :
    Plain (positional digits exponent) := by
  have hzeros := plain_replicate (c := '0') (by decide)
  unfold positional
  dsimp only
  split
  · simp [h, hzeros]
  · split
    · simp [h.take, h.drop]
    · simp [h, hzeros]

theorem plain_scientific (style : Style) {digits : List Char} (h : Plain digits)
    (exponent : Int) : Plain (scientific style digits exponent) := by
  unfold scientific
  dsimp only
  generalize (digits.length : Int) - 1 + exponent = power
  have hsign : Plain (if style.plusSign ∧ 0 ≤ power then ['+'] else []) := by
    split <;> simp
  cases digits with
  | nil => simp [hsign, plain_signedDecimal]
  | cons first others =>
    cases others with
    | nil => simpa [hsign, plain_signedDecimal] using h
    | cons second rest => simpa [hsign, plain_signedDecimal] using h

theorem plain_text (style : Style) (d : Double) : Plain (d.text style) := by
  have hsign : Plain (if d.negative then ['-'] else []) := by
    split <;> simp
  have hdigits := plain_decimal d.shortest.digits
  unfold text
  dsimp only
  generalize (if d.negative then ['-'] else []) = sign at hsign ⊢
  split
  · simp [hsign]
  · split
    · exact plain_append.mpr ⟨hsign, plain_positional hdigits _⟩
    · exact plain_append.mpr ⟨hsign, plain_scientific style hdigits _⟩

end Double

namespace Json

theorem plain_numberText (n : Number) : Plain (numberText n) := by
  cases n with
  | integer n => exact plain_signedDecimal n
  | double d => exact d.plain_text numberStyle

/-- A control character is escaped, and escapes have none. -/
theorem plain_escapeChar (c : Char) : Plain (escapeChar c) := by
  unfold escapeChar
  repeat' split
  all_goals simp only [plain_cons, plain_nil, and_true, le_toNat_hexDigit, and_self]
  all_goals first | decide | omega

theorem plain_stringText (text : String) : Plain (stringText text) := by
  have hcharacters : Plain (text.toList.flatMap escapeChar) := by
    intro c hc
    obtain ⟨d, _, hd⟩ := List.mem_flatMap.mp hc
    exact plain_escapeChar d c hd
  simp [stringText, hcharacters]

theorem plain_compactItems {items : List Json} (h : ∀ item ∈ items, Plain item.compact) :
    Plain (compactItems items) := by
  induction items with
  | nil => simp [compactItems]
  | cons item rest ih =>
    obtain ⟨hitem, hrest⟩ := List.forall_mem_cons.mp h
    simp [compactItems, hitem, ih hrest]

theorem plain_compactField {field : String × Json} (h : Plain field.2.compact) :
    Plain (compactField field) := by
  obtain ⟨key, value⟩ := field
  simp [compactField, plain_stringText, h]

theorem plain_compactFields {fields : List (String × Json)}
    (h : ∀ field ∈ fields, Plain field.2.compact) : Plain (compactFields fields) := by
  induction fields with
  | nil => simp [compactFields]
  | cons field rest ih =>
    obtain ⟨hfield, hrest⟩ := List.forall_mem_cons.mp h
    simp [compactFields, plain_compactField hfield, ih hrest]

/-- The compact text of a value holds no control character. -/
theorem plain_compact (value : Json) : Plain value.compact := by
  induction value using induction with
  | null => simp [compact]
  | bool b => cases b <;> simp [compact]
  | num n => exact plain_numberText n
  | str s => exact plain_stringText s
  | arr items ih =>
    cases items with
    | nil => simp [compact]
    | cons item rest =>
      obtain ⟨hitem, hrest⟩ := List.forall_mem_cons.mp ih
      simp [compact, hitem, plain_compactItems hrest]
  | obj fields ih =>
    cases fields with
    | nil => simp [compact]
    | cons field rest =>
      obtain ⟨hfield, hrest⟩ := List.forall_mem_cons.mp ih
      simp [compact, plain_compactField hfield, plain_compactFields hrest]

end Json

end ClusterObjects
