import Mathlib.Tactic.SplitIfs
import Simnet.Proofs.NumberText

namespace Simnet

/-! The indented form of a value is read back as the value. The printer and the reader take
the same steps: a line break before an item is a blank to the reader, and what follows a value
tells whether its container goes on. -/

namespace Json

variable {text rest : List Char} {number : Json}

/-! Quoted text -/

theorem hexValue?_hexDigit : ∀ value < 16, hexValue? (hexDigit value) = some value := by
  decide

theorem readUnits_simpleEscape {letter char : Char} (escape : simpleEscape? letter = some char)
    (rest : List Char) :
    readUnits ('\\' :: letter :: rest) =
      (readUnits rest).map fun read => (char.toNat :: read.1, read.2) := by
  have other : letter ≠ 'u' := by
    rintro rfl
    cases escape
  rw [readUnits.eq_4 letter rest fun _ _ _ _ _ isU _ => other isU, escape]
  cases readUnits rest with
  | none => rfl
  | some read => rfl

theorem readUnits_control {char : Char} (control : char.toNat < 32) (rest : List Char) :
    readUnits ('\\' :: 'u' :: '0' :: '0' :: hexDigit (char.toNat / 16) ::
        hexDigit (char.toNat % 16) :: rest) =
      (readUnits rest).map fun read => (char.toNat :: read.1, read.2) := by
  have high := hexValue?_hexDigit (char.toNat / 16) (by omega)
  have low := hexValue?_hexDigit (char.toNat % 16) (by omega)
  have zero : hexValue? '0' = some 0 := rfl
  have unit : hexUnit? '0' '0' (hexDigit (char.toNat / 16)) (hexDigit (char.toNat % 16)) =
      some char.toNat := by
    simp only [hexUnit?, high, low, zero, Option.bind_eq_bind, Option.bind_some]
    congr 1
    omega
  rw [readUnits, unit]
  cases readUnits rest with
  | none => rfl
  | some read => rfl

theorem readUnits_plain {char : Char} (quote : char ≠ '"') (backslash : char ≠ '\\')
    (control : ¬ char.toNat < 32) (rest : List Char) :
    readUnits (char :: rest) =
      (readUnits rest).map fun read => (char.toNat :: read.1, read.2) := by
  rw [readUnits.eq_5 char rest quote (fun _ _ _ _ _ same _ => backslash same)
    fun _ _ same _ => backslash same]
  simp only [control, backslash]
  cases readUnits rest with
  | none => rfl
  | some read => rfl

theorem readUnits_escapeChar (char : Char) (rest : List Char) :
    readUnits (escapeChar char ++ rest) =
      (readUnits rest).map fun read => (char.toNat :: read.1, read.2) := by
  rw [escapeChar]
  split_ifs with quote backslash line tab carriage backspace feed control
  · rw [quote]
    exact readUnits_simpleEscape rfl rest
  · rw [backslash]
    exact readUnits_simpleEscape rfl rest
  · rw [line]
    exact readUnits_simpleEscape rfl rest
  · rw [tab]
    exact readUnits_simpleEscape rfl rest
  · rw [carriage]
    exact readUnits_simpleEscape rfl rest
  · rw [← Char.ofNat_toNat char, backspace]
    exact readUnits_simpleEscape rfl rest
  · rw [← Char.ofNat_toNat char, feed]
    exact readUnits_simpleEscape rfl rest
  · exact readUnits_control control rest
  · exact readUnits_plain quote backslash control rest

theorem readUnits_escaped (chars rest : List Char) :
    readUnits (chars.flatMap escapeChar ++ '"' :: rest) = some (chars.map Char.toNat, rest) := by
  induction chars with
  | nil => rw [List.flatMap_nil, List.nil_append, readUnits, List.map_nil]
  | cons char chars induction =>
      rw [List.flatMap_cons, List.append_assoc, readUnits_escapeChar, induction]
      rfl

theorem joinUnits_toNat (chars : List Char) :
    joinUnits (chars.map Char.toNat) = some chars := by
  induction chars with
  | nil => rfl
  | cons char chars induction =>
      have valid : char.toNat < 0xD800 ∨ 0xDFFF < char.toNat ∧ char.toNat < 0x110000 := char.valid
      have high : ¬ (0xD800 ≤ char.toNat ∧ char.toNat < 0xDC00) := by omega
      have low : ¬ (0xDC00 ≤ char.toNat ∧ char.toNat < 0xE000) := by omega
      rw [List.map_cons, joinUnits.eq_def]
      simp only [if_neg high, if_neg low, induction, Char.ofNat_toNat, Option.map_some]

theorem readText_escaped (text : String) (rest : List Char) :
    readText (text.toList.flatMap escapeChar ++ '"' :: rest) = some (some text, rest) := by
  simp only [readText, readUnits_escaped, joinUnits_toNat, Option.bind_eq_bind, Option.bind_some,
    Option.map_some, String.ofList_toList]

/-! Blanks -/

theorem skipBlanks_cons {first : Char} (visible : isBlank first = false) (rest : List Char) :
    skipBlanks (first :: rest) = first :: rest := by
  simp [skipBlanks, visible]

theorem skipBlanks_newLine (depth : Nat) (rest : List Char) :
    skipBlanks (newLine depth ++ rest) = skipBlanks rest := by
  have blank : ∀ char ∈ newLine depth, isBlank char = true := by
    intro char mem
    rcases List.mem_cons.mp mem with rfl | mem
    · rfl
    · rw [List.eq_of_mem_replicate mem]
      rfl
  exact List.dropWhile_append_of_pos blank

variable {other : List Char}

theorem readValue_congr (same : skipBlanks text = skipBlanks other) (fuel : Nat) :
    readValue fuel text = readValue fuel other := by
  cases fuel with
  | zero => rw [readValue, readValue]
  | succ fuel =>
      rw [readValue.eq_def, readValue.eq_def]
      dsimp only
      rw [same]

theorem readItems_congr (same : skipBlanks text = skipBlanks other) (fuel : Nat) :
    readItems fuel text = readItems fuel other := by
  cases fuel with
  | zero => rw [readItems, readItems]
  | succ fuel =>
      rw [readItems.eq_def, readItems.eq_def]
      dsimp only
      rw [readValue_congr same]

theorem readFields_congr (same : skipBlanks text = skipBlanks other) (fuel : Nat) :
    readFields fuel text = readFields fuel other := by
  cases fuel with
  | zero => rw [readFields, readFields]
  | succ fuel =>
      rw [readFields.eq_def, readFields.eq_def]
      dsimp only
      rw [same]

/-! Numbers that are not whole -/

/-- The text of a number stands for that number again. The reader scales by powers of ten,
so this fails for some numbers. -/
def ReadsBack (value : Float) : Prop :=
  parse (float value).pretty = some (float value)

def isFloat (value : Float) : Json → Bool
  | float other => other = value
  | _ => false

theorem any_isFloat_iff {value : Float} {json : Option Json} :
    json.any (isFloat value) = true ↔ json = some (float value) := by
  rcases json with _ | json
  · simp
  · cases json <;> simp [isFloat]

instance (value : Float) : Decidable (ReadsBack value) :=
  decidable_of_iff ((parse (float value).pretty).any (isFloat value)) any_isFloat_iff

example : ReadsBack (-0.015625) ∧ ¬ ReadsBack (10 / 11) := by
  decide +kernel

theorem isBlank_of_isDigit {char : Char} (digit : char.isDigit = true) : isBlank char = false := by
  rw [Bool.eq_false_iff]
  intro blank
  simp only [isBlank, Bool.or_eq_true, decide_eq_true_eq] at blank
  rcases blank with ((rfl | rfl) | rfl) | rfl <;> cases digit

theorem readValue_number (read : readNumber text = some (number, rest)) (fuel : Nat) :
    readValue (fuel + 1) text = some (number, rest) := by
  obtain ⟨first, tail, rfl, starts⟩ := head_of_readNumber read
  have visible : isBlank first = false := by
    rcases starts with rfl | digit
    · rfl
    · exact isBlank_of_isDigit digit
  rw [readValue.eq_def]
  dsimp only
  rw [skipBlanks_cons visible]
  split
  case h_7 => exact read
  all_goals
    rename_i same
    cases same
    simp at starts

theorem readNumber_of_readValue {fuel : Nat} {value : Float}
    (visible : ∀ char ∈ text, isBlank char = false)
    (read : readValue fuel text = some (float value, rest)) :
    readNumber text = some (float value, rest) := by
  have unchanged : skipBlanks text = text := by
    cases text with
    | nil => rfl
    | cons first tail => exact skipBlanks_cons (visible first List.mem_cons_self) tail
  cases fuel with
  | zero =>
      rw [readValue] at read
      cases read
  | succ fuel =>
      rw [readValue.eq_def] at read
      dsimp only at read
      rw [unchanged] at read
      split at read
      · cases read
      · cases read
      · cases read
      · split at read <;> cases read
      · split at read
        · cases read
        · split at read <;> cases read
      · split at read
        · cases read
        · split at read
          · cases read
          · rename_i fields _ _
            rw [ofNamed] at read
            split at read <;> cases read
      · exact read

def Unbroken (text : String) : Prop :=
  ∀ char ∈ text.toList, isBlank char = false

instance (text : String) : Decidable (Unbroken text) :=
  List.decidableBAll (fun char => isBlank char = false) text.toList

theorem Unbroken.append {first second : String} (left : Unbroken first) (right : Unbroken second) :
    Unbroken (first ++ second) := by
  intro char mem
  rw [String.toList_append, List.mem_append] at mem
  exact mem.elim (left char) (right char)

theorem Unbroken.ofList_subset {text : String} (unbroken : Unbroken text) {chars : List Char}
    (subset : chars ⊆ text.toList) : Unbroken (String.ofList chars) := by
  intro char mem
  rw [String.toList_ofList] at mem
  exact unbroken char (subset mem)

theorem unbroken_digitsText (number : Nat) : Unbroken (Decimal.digitsText number) := by
  intro char mem
  rw [Decimal.digitsText, Nat.toList_repr] at mem
  exact isBlank_of_isDigit (Nat.isDigit_of_mem_toDigits (by decide) (by decide) mem)

theorem unbroken_zeros (count : Nat) : Unbroken (Decimal.zeros count) := by
  intro char mem
  rw [Decimal.zeros, String.toList_ofList] at mem
  rw [List.eq_of_mem_replicate mem]
  rfl

theorem unbroken_positional {digits : String} (unbroken : Unbroken digits) (place : Int) :
    Unbroken (Decimal.positional digits place) := by
  have point : Unbroken "." := by decide
  have lead : Unbroken "0." := by decide
  rw [Decimal.positional]
  split_ifs
  · exact (lead.append (unbroken_zeros _)).append unbroken
  · exact unbroken.append (unbroken_zeros _)
  · apply Unbroken.append
    · exact (unbroken.ofList_subset (List.take_subset ..)).append point
    · exact unbroken.ofList_subset (List.drop_subset ..)

theorem unbroken_scientific {digits : String} (unbroken : Unbroken digits) (place : Int) :
    Unbroken (Decimal.scientific digits place) := by
  have sign : Unbroken (if place - 1 < 0 then "e-" else "e+") := by
    split <;> decide
  rw [Decimal.scientific]
  apply Unbroken.append
  · apply Unbroken.append _ sign
    intro char mem
    rw [String.toList_ofList] at mem
    split at mem
    · exact unbroken char (List.take_subset _ _ mem)
    · rcases List.mem_append.mp mem with lead | rest
      · exact unbroken char (List.take_subset _ _ lead)
      · rcases List.mem_cons.mp rest with rfl | rest
        · rfl
        · exact unbroken char (List.drop_subset _ _ rest)
  · exact unbroken_digitsText _

theorem unbroken_reportText (value : Float) : Unbroken (Decimal.reportText value) := by
  have sign : Unbroken (Decimal.signText value) := by
    rw [Decimal.signText]
    split <;> decide
  have zero : Unbroken "0.0" := by decide
  rw [Decimal.reportText]
  generalize Decimal.shortest .toEven (Decimal.Binary.ofFloat value) = decimal
  have digits := unbroken_digitsText decimal.digits
  have fraction : Unbroken (if 0 ≤ decimal.exponent then ".0" else "") := by
    split <;> decide
  split
  · exact sign.append zero
  split
  · exact (sign.append (unbroken_positional digits _)).append fraction
  · exact sign.append (unbroken_scientific digits _)

theorem ReadsBack.readNumber {value : Float} (back : ReadsBack value) :
    readNumber (floatChars value) = some (float value, []) := by
  rw [ReadsBack, parse, pretty, prettyChars, String.toList_ofList, parseChars] at back
  have unbroken : ∀ char ∈ floatChars value, isBlank char = false := by
    rw [floatChars]
    split
    · exact unbroken_reportText value
    · exact (by decide : Unbroken "null")
  split at back
  · cases back
  · rename_i json rest read
    split at back
    · rename_i ends
      cases back
      have number := readNumber_of_readValue unbroken read
      have suffix := readNumber_suffix number
      cases rest with
      | nil => exact number
      | cons first rest =>
          rw [skipBlanks_cons (unbroken first (suffix.subset List.mem_cons_self))] at ends
          cases ends
    · cases back

/-! Values -/

/-- A value whose numbers are in range. -/
inductive Faithful : Json → Prop
  | null : Faithful null
  | bool (value : Bool) : Faithful (bool value)
  | integer {value : Int} (low : -0x8000000000000000 ≤ value) (high : value ≤ maxTime) :
      Faithful (integer value)
  | float {value : Float} (back : ReadsBack value) : Faithful (float value)
  | string (text : String) : Faithful (string text)
  | array {items : List Json} (each : ∀ item ∈ items, Faithful item) : Faithful (array items)
  | object {fields : List (String × Json)} (each : ∀ field ∈ fields, Faithful field.2) :
      Faithful (object fields)

/-- With enough fuel the text of a value is read as that value, at every depth and before
everything that may follow it. -/
def Restored (value : Json) : Prop :=
  ∀ (depth fuel : Nat) (rest : List Char), Follows rest →
    2 * (prettyChars depth value).length ≤ fuel →
    readValue (fuel + 1) (prettyChars depth value ++ rest) = some (value, rest)

theorem restored_of_readNumber {value : Json} {chars : List Char}
    (printed : ∀ depth, prettyChars depth value = chars)
    (read : readNumber chars = some (value, [])) : Restored value := by
  intro depth fuel rest follows _
  rw [printed]
  apply readValue_number
  rw [readNumber_append follows, read]
  rfl

theorem quote_append (text : String) (rest : List Char) :
    quote text ++ rest = '"' :: (text.toList.flatMap escapeChar ++ '"' :: rest) := by
  simp [quote]

theorem restored_string (text : String) : Restored (string text) := by
  intro depth fuel rest _ _
  rw [prettyChars, quote_append, readValue.eq_def]
  simp only [skipBlanks_cons (show isBlank '"' = false by decide), readText_escaped]

/-! Arrays -/

variable {fuel outer : Nat} {item : Json} {after : List Char}

theorem readItems_last (read : readValue fuel text = some (item, newLine outer ++ ']' :: after)) :
    readItems (fuel + 1) text = some ([item], after) := by
  have ends : skipBlanks (newLine outer ++ ']' :: after) = ']' :: after := by
    rw [skipBlanks_newLine, skipBlanks_cons (by decide)]
  simp only [readItems, read, ends]

theorem readItems_comma (read : readValue fuel text = some (item, ',' :: rest)) :
    readItems (fuel + 1) text =
      (readItems fuel rest).map fun read => (item :: read.1, read.2) := by
  have goesOn : skipBlanks (',' :: rest) = ',' :: rest := skipBlanks_cons (by decide) rest
  simp only [readItems, read, goesOn]
  cases readItems fuel rest <;> rfl

theorem readItems_pretty {depth : Nat} {first : Json} {items : List Json}
    (each : ∀ item ∈ first :: items, Restored item)
    (enough : 2 * ((prettyChars depth first).length + (prettyItems depth items).length) ≤ fuel) :
    readItems (fuel + 2) (prettyChars depth first ++ (prettyItems depth items ++
      (newLine outer ++ ']' :: after))) = some (first :: items, after) := by
  induction items generalizing first fuel with
  | nil =>
      have head := each first List.mem_cons_self depth fuel
        (newLine outer ++ ']' :: after) (.line _) (by omega)
      rw [prettyItems, List.nil_append]
      exact readItems_last head
  | cons second items induction =>
      rw [prettyItems] at enough ⊢
      simp only [List.length_append, List.length_cons] at enough
      obtain ⟨less, rfl⟩ := Nat.exists_eq_add_of_le' (show 1 ≤ fuel by omega)
      have tail := induction (fun item mem => each item (List.mem_cons_of_mem _ mem))
        (show 2 * ((prettyChars depth second).length + (prettyItems depth items).length) ≤ less
          by omega)
      have head := each first List.mem_cons_self depth (less + 1)
        (',' :: (newLine depth ++ (prettyChars depth second ++ (prettyItems depth items ++
          (newLine outer ++ ']' :: after))))) (.comma _) (by omega)
      simp only [List.cons_append, List.append_assoc]
      rw [readItems_comma head, readItems_congr (skipBlanks_newLine ..), tail]
      rfl

theorem readValue_items {head : Char} {tail : List Char} {items : List Json}
    (visible : isBlank head = false) (more : head ≠ ']')
    (read : readItems fuel (head :: tail) = some (items, after)) :
    readValue (fuel + 1) ('[' :: (newLine outer ++ head :: tail)) = some (array items, after) := by
  have starts : skipBlanks (newLine outer ++ head :: tail) = head :: tail := by
    rw [skipBlanks_newLine, skipBlanks_cons visible]
  simp only [readValue, skipBlanks_cons (show isBlank '[' = false by decide), starts]
  split
  · rename_i ends
    cases ends
    exact absurd rfl more
  · rw [read]

/-! Objects -/

variable {name : String}

theorem readFields_last
    (read : readValue fuel text = some (item, newLine outer ++ '\x7d' :: after)) :
    readFields (fuel + 1) (quote name ++ ':' :: ' ' :: text) =
      some ([(some name, item)], after) := by
  have read : readValue fuel (' ' :: text) = some (item, newLine outer ++ '\x7d' :: after) := by
    rwa [readValue_congr (show skipBlanks (' ' :: text) = skipBlanks text from rfl)]
  have ends : skipBlanks (newLine outer ++ '\x7d' :: after) = '\x7d' :: after := by
    rw [skipBlanks_newLine, skipBlanks_cons (by decide)]
  rw [quote_append]
  simp only [readFields, skipBlanks_cons (show isBlank '"' = false by decide), readText_escaped,
    skipBlanks_cons (show isBlank ':' = false by decide), read, ends]

theorem readFields_comma (read : readValue fuel text = some (item, ',' :: rest)) :
    readFields (fuel + 1) (quote name ++ ':' :: ' ' :: text) =
      (readFields fuel rest).map fun read => ((some name, item) :: read.1, read.2) := by
  have read : readValue fuel (' ' :: text) = some (item, ',' :: rest) := by
    rwa [readValue_congr (show skipBlanks (' ' :: text) = skipBlanks text from rfl)]
  rw [quote_append]
  simp only [readFields, skipBlanks_cons (show isBlank '"' = false by decide), readText_escaped,
    skipBlanks_cons (show isBlank ':' = false by decide), read,
    skipBlanks_cons (show isBlank ',' = false by decide)]
  cases readFields fuel rest <;> rfl

theorem readFields_pretty {depth : Nat} {first : String × Json} {fields : List (String × Json)}
    (each : ∀ field ∈ first :: fields, Restored field.2)
    (enough : 2 * ((prettyField depth first).length + (prettyFields depth fields).length) ≤ fuel) :
    readFields (fuel + 2) (prettyField depth first ++ (prettyFields depth fields ++
      (newLine outer ++ '\x7d' :: after))) =
        some ((first :: fields).map fun field => (some field.1, field.2), after) := by
  induction fields generalizing first fuel with
  | nil =>
      rw [prettyField] at enough ⊢
      simp only [List.length_append] at enough
      have head := each first List.mem_cons_self depth fuel
        (newLine outer ++ '\x7d' :: after) (.line _) (by omega)
      simp only [prettyFields, List.append_assoc, List.cons_append, List.nil_append]
      rw [readFields_last head]
      rfl
  | cons second fields induction =>
      rw [prettyFields] at enough ⊢
      rw [prettyField] at enough
      simp only [List.length_append, List.length_cons] at enough
      obtain ⟨less, rfl⟩ := Nat.exists_eq_add_of_le' (show 1 ≤ fuel by omega)
      have tail := induction (fun field mem => each field (List.mem_cons_of_mem _ mem))
        (show 2 * ((prettyField depth second).length + (prettyFields depth fields).length) ≤ less
          by omega)
      have head := each first List.mem_cons_self depth (less + 1)
        (',' :: (newLine depth ++ (prettyField depth second ++ (prettyFields depth fields ++
          (newLine outer ++ '\x7d' :: after))))) (.comma _) (by omega)
      rw [prettyField]
      simp only [List.cons_append, List.append_assoc, List.nil_append] at tail ⊢
      rw [readFields_comma head, readFields_congr (skipBlanks_newLine ..), tail]
      rfl

theorem readValue_fields {fields : List (Option String × Json)}
    (read : readFields fuel (quote name ++ text) = some (fields, after)) :
    readValue (fuel + 1) ('\x7b' :: (newLine outer ++ (quote name ++ text))) =
      some (ofNamed fields, after) := by
  rw [quote_append] at read ⊢
  simp only [readValue, skipBlanks_cons (show isBlank '\x7b' = false by decide),
    skipBlanks_newLine, skipBlanks_cons (show isBlank '"' = false by decide)]
  split
  · rename_i ends
    cases ends
  · rw [read]

theorem ofNamed_some (fields : List (String × Json)) :
    ofNamed (fields.map fun field => (some field.1, field.2)) = object fields := by
  have named : (fields.map fun field => (some field.1, field.2)).mapM
      (fun field => field.1.map fun name => (name, field.2)) = some fields := by
    induction fields with
    | nil => rfl
    | cons field fields induction => simp [induction]
  rw [ofNamed, named]

/-! Every faithful value -/

/-- The text of a value does not look like the end of an array. -/
theorem Faithful.starts {value : Json} (faithful : Faithful value) (depth : Nat) :
    ∃ first tail, prettyChars depth value = first :: tail ∧ isBlank first = false ∧
      first ≠ ']' := by
  have ofNumber {chars : List Char} (read : Json.readNumber chars = some (value, [])) :
      ∃ first tail, chars = first :: tail ∧ isBlank first = false ∧ first ≠ ']' := by
    obtain ⟨first, tail, spelled, starts⟩ := head_of_readNumber read
    refine ⟨first, tail, spelled, ?_⟩
    rcases starts with rfl | digit
    · decide
    · refine ⟨isBlank_of_isDigit digit, ?_⟩
      rintro rfl
      cases digit
  cases faithful with
  | null => exact ⟨_, _, by rw [prettyChars], by decide⟩
  | bool value => cases value <;> exact ⟨_, _, by rw [prettyChars], by decide⟩
  | integer low high =>
      rw [prettyChars]
      exact ofNumber (readNumber_integerChars low high)
  | float back =>
      rw [prettyChars]
      exact ofNumber back.readNumber
  | string text => exact ⟨_, _, by rw [prettyChars, quote, List.cons_append], by decide⟩
  | @array items each =>
      cases items with
      | nil => exact ⟨_, _, by rw [prettyChars], by decide⟩
      | cons first rest => exact ⟨_, _, by rw [prettyChars]; rfl, by decide⟩
  | @object fields each =>
      cases fields with
      | nil => exact ⟨_, _, by rw [prettyChars], by decide⟩
      | cons first rest => exact ⟨_, _, by rw [prettyChars]; rfl, by decide⟩

theorem restored_array {items : List Json} (faithful : ∀ item ∈ items, Faithful item)
    (each : ∀ item ∈ items, Restored item) : Restored (array items) := by
  intro depth fuel after _ enough
  cases items with
  | nil =>
      rw [prettyChars]
      simp only [readValue, List.cons_append, List.nil_append,
        skipBlanks_cons (show isBlank '[' = false by decide),
        skipBlanks_cons (show isBlank ']' = false by decide)]
  | cons first rest =>
      rw [prettyChars] at enough ⊢
      simp only [List.cons_append, List.length_append, List.length_cons] at enough
      obtain ⟨less, rfl⟩ := Nat.exists_eq_add_of_le' (show 2 ≤ fuel by omega)
      have items : readItems (less + 2) (prettyChars (depth + 1) first ++
          (prettyItems (depth + 1) rest ++ (newLine depth ++ ']' :: after))) =
            some (first :: rest, after) :=
        readItems_pretty each (by omega)
      obtain ⟨head, tail, spelled, visible, more⟩ :=
        (faithful first List.mem_cons_self).starts (depth + 1)
      simp only [spelled, List.cons_append, List.append_assoc] at items ⊢
      exact readValue_items visible more items

theorem restored_object {fields : List (String × Json)}
    (each : ∀ field ∈ fields, Restored field.2) : Restored (object fields) := by
  intro depth fuel after _ enough
  cases fields with
  | nil =>
      rw [prettyChars]
      simp only [readValue, List.cons_append, List.nil_append,
        skipBlanks_cons (show isBlank '\x7b' = false by decide),
        skipBlanks_cons (show isBlank '\x7d' = false by decide)]
  | cons first rest =>
      obtain ⟨name, value⟩ := first
      rw [prettyChars] at enough ⊢
      simp only [List.cons_append, List.length_append, List.length_cons] at enough
      obtain ⟨less, rfl⟩ := Nat.exists_eq_add_of_le' (show 2 ≤ fuel by omega)
      have read : readFields (less + 2) (prettyField (depth + 1) (name, value) ++
          (prettyFields (depth + 1) rest ++ (newLine depth ++ '\x7d' :: after))) =
            some (((name, value) :: rest).map fun field => (some field.1, field.2), after) :=
        readFields_pretty each (by omega)
      rw [← ofNamed_some]
      simp only [prettyField, List.cons_append, List.nil_append, List.append_assoc] at read ⊢
      exact readValue_fields read

theorem Faithful.restored {value : Json} (faithful : Faithful value) : Restored value := by
  induction faithful with
  | null =>
      intro depth fuel rest _ _
      rw [prettyChars]
      simp only [readValue, List.cons_append, List.nil_append,
        skipBlanks_cons (show isBlank 'n' = false by decide)]
  | bool value =>
      intro depth fuel rest _ _
      cases value <;> rw [prettyChars]
      · simp only [readValue, List.cons_append, List.nil_append,
          skipBlanks_cons (show isBlank 'f' = false by decide)]
      · simp only [readValue, List.cons_append, List.nil_append,
          skipBlanks_cons (show isBlank 't' = false by decide)]
  | integer low high =>
      exact restored_of_readNumber (fun _ => by rw [prettyChars]) (readNumber_integerChars low high)
  | float back => exact restored_of_readNumber (fun _ => by rw [prettyChars]) back.readNumber
  | string text => exact restored_string text
  | array faithful each => exact restored_array faithful each
  | object faithful each => exact restored_object each

theorem parse_pretty {value : Json} (faithful : Faithful value) :
    parse value.pretty = some value := by
  have read := faithful.restored 0 (2 * (prettyChars 0 value).length + 1) [] .nothing (by omega)
  rw [List.append_nil] at read
  rw [parse, pretty, String.toList_ofList, parseChars, read]
  rfl

end Json

end Simnet
