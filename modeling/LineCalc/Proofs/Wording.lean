import LineCalc.Proofs.Step

/-!
What the wording of an error can hold. A message is made of fixed words, numerals and pieces of
the line that it is about, so each of its characters is a printing one of ASCII or stands in the
line (`Text.Quotes`).
-/
namespace LineCalc
open Numeral Scan

/-- The printing characters of ASCII, with the space. -/
def isPrinting (c : Char) : Bool := 32 ≤ c.toNat && c.toNat ≤ 126

theorem isPrinting_iff {c : Char} : isPrinting c = true ↔ 32 ≤ c.toNat ∧ c.toNat ≤ 126 := by simp [isPrinting]

theorem isPrinting_of_isDigit {c : Char} (digit : c.isDigit = true) : isPrinting c = true := by
  obtain ⟨low, high⟩ := digit_bounds digit
  exact isPrinting_iff.mpr ⟨by omega, by omega⟩

theorem isPrinting_of_isAlpha {c : Char} (letter : c.isAlpha = true) : isPrinting c = true := by
  obtain ⟨low, high⟩ := letter_bounds letter
  exact isPrinting_iff.mpr ⟨by omega, by omega⟩

/-- A text of printing characters and of characters that stand in the line. -/
def Text.Quotes (line text : Text) : Prop := ∀ c ∈ text, c ∈ line ∨ isPrinting c = true

/-- Message and detail of an error quote the line. -/
structure LineError.Quotes (line : Text) (error : LineError) : Prop where
  message : Text.Quotes line error.message
  detail : ∀ detail, error.detail = some detail → Text.Quotes line detail

namespace Text.Quotes

variable {line text front back : Text}

theorem append (first : Quotes line front) (second : Quotes line back) : Quotes line (front ++ back) := by
  intro c member
  rcases List.mem_append.mp member with before | behind
  · exact first c before
  · exact second c behind

theorem of_subset (inside : text ⊆ line) : Quotes line text := fun _ member => Or.inl (inside member)

theorem of_printing (printing : text.all isPrinting = true) : Quotes line text :=
  fun c member => Or.inr (List.all_eq_true.mp printing c member)

theorem inQuotes (quotes : Quotes line text) : Quotes line (inQuotes text) := by
  have sign : Quotes line ['\''] := of_printing (by decide)
  exact (sign.append quotes).append sign

theorem numeral (n : Int) : Quotes line (Numeral.print n) := by
  intro c member
  rw [print_eq_decimal] at member
  rcases mem_decimal member with rfl | digit
  · exact Or.inr (by decide)
  · exact Or.inr (isPrinting_of_isDigit digit)

theorem free_of_feeds (quotes : Quotes line text) (free : '\n' ∉ line) : '\n' ∉ text := by
  intro member
  rcases quotes '\n' member with inside | printing
  · exact free inside
  · exact absurd printing (by decide)

end Text.Quotes

theorem Text.fromIndex_subset (index : Int) (text : Text) : fromIndex index text ⊆ text := by
  rw [fromIndex]
  split <;> exact List.drop_subset _ _

/-! ## Errors and the texts that they name -/

namespace LineError.Quotes

variable {line : Text}

theorem of_message {error : LineError} (message : Text.Quotes line error.message) (noDetail : error.detail = none) :
    error.Quotes line := by
  refine ⟨message, ?_⟩
  intro detail found
  rw [noDetail] at found
  cases found

theorem invalidCharacter {c : Char} (inside : c ∈ line) (column : Int) : (invalidCharacter [c] column).Quotes line := by
  have refused : Text.Quotes line [c] := by
    intro d member
    rw [List.mem_singleton.mp member]
    exact Or.inl inside
  have words : Text.Quotes line "invalid character ".toList := .of_printing (by decide)
  have place : Text.Quotes line " at column ".toList := .of_printing (by decide)
  exact .of_message (((words.append refused.inQuotes).append place).append (.numeral column)) rfl

theorem unrecognized (column : Int) : (malformed .unrecognized column).Quotes line := by
  have words : Text.Quotes line SyntaxFault.unrecognized.message := .of_printing (by decide)
  exact .of_message words rfl

theorem missingValue (column : Int) : (malformed .missingValue column).Quotes line := by
  have words : Text.Quotes line SyntaxFault.missingValue.message := .of_printing (by decide)
  exact .of_message words rfl

theorem missingOperand {lexeme : Text} (inside : lexeme ⊆ line) (column : Int) :
    (malformed (.missingOperand lexeme) column).Quotes line := by
  have words : Text.Quotes line "missing operand after ".toList := .of_printing (by decide)
  exact .of_message (words.append (Text.Quotes.of_subset inside).inQuotes) rfl

theorem unexpected {lexeme : Text} (inside : lexeme ⊆ line) (start column : Int) :
    (malformed (.unexpected lexeme start) column).Quotes line := by
  have words : Text.Quotes line "unexpected ".toList := .of_printing (by decide)
  have place : Text.Quotes line " at column ".toList := .of_printing (by decide)
  exact .of_message (((words.append (Text.Quotes.of_subset inside).inQuotes).append place).append (.numeral start)) rfl

theorem badNumeral {text : Text} (inside : text ⊆ line) : (badNumeral text).Quotes line := by
  have words : Text.Quotes line "invalid value: \"".toList := .of_printing (by decide)
  have closing : Text.Quotes line ['"'] := .of_printing (by decide)
  exact .of_message ((words.append (.of_subset inside)).append closing) rfl

theorem redefinition {name : Text} (inside : name ⊆ line) (existing : Int) : (redefinition name existing).Quotes line := by
  have words : Text.Quotes line "variable redefinition: ".toList := .of_printing (by decide)
  have actual : Text.Quotes line "actual: ".toList := .of_printing (by decide)
  refine ⟨words.append (.of_subset inside), ?_⟩
  rintro detail ⟨⟩
  exact actual.append (.numeral existing)

end LineError.Quotes

theorem isPrinting_of_isNameCharacter {c : Char} (inName : isNameCharacter c = true) : isPrinting c = true := by
  rcases Bool.or_eq_true_iff.mp inName with letter | digit
  · exact isPrinting_of_isAlpha letter
  · exact isPrinting_of_isDigit digit

theorem LineError.IsOfValue.quotes {error : LineError} (cause : error.IsOfValue) (line : Text) : error.Quotes line := by
  cases cause with
  | undefinedVariable written =>
    have words : Text.Quotes line "undefined variable: ".toList := .of_printing (by decide)
    have name : Text.Quotes line _ := fun c member => Or.inr (isPrinting_of_isNameCharacter (written.characters c member))
    exact .of_message (words.append name) rfl
  | divisionByZero | moduloByZero => exact .of_message (.of_printing (by decide)) rfl

/-! ## What is read from a line -/

namespace Scan

theorem scanFrom_subset (room : Option Nat) (position : Nat) (text : Text) :
    (∀ token ∈ (scanFrom room position text).tokens, token.lexeme ⊆ text) ∧
      ∀ c, (scanFrom room position text).refused = some c → c ∈ text := by
  fun_induction scanFrom room position text with
  | case1 | case2 => simp
  | case3 room position c rest _ _ ih =>
    obtain ⟨lexemes, refused⟩ := ih
    exact ⟨fun token member => List.subset_cons_of_subset c (lexemes token member),
      fun d last => List.mem_cons_of_mem c (refused d last)⟩
  | case4 room position c rest _ _ munch found ih =>
    obtain ⟨lexemes, refused⟩ := ih
    have whole := Munch.ofText?_append found
    rw [← whole]
    refine ⟨?_, fun d last => List.mem_append_right _ (refused d last)⟩
    intro token member
    rcases List.mem_cons.mp member with rfl | later
    · exact List.subset_append_left _ _
    · exact List.subset_append_of_subset_right _ (lexemes token later)
  | case5 => simp

theorem tokenize_subset {limit : Option Int} {line : Text} {tokens : List Token} (found : tokenize limit line = .ok tokens) :
    ∀ token ∈ tokens, token.lexeme ⊆ line := by
  rw [tokenize, result] at found
  split at found <;> cases found
  intro token member
  rcases List.mem_append.mp member with scanned | last
  · exact (scanFrom_subset _ _ line).1 token scanned
  · rw [List.mem_singleton.mp last]
    exact List.nil_subset line

theorem tokenize_quotes {limit : Option Int} {line : Text} {error : LineError} (refused : tokenize limit line = .error error) :
    error.Quotes line := by
  rw [tokenize, result] at refused
  split at refused <;> cases refused
  next c last => exact .invalidCharacter ((scanFrom_subset _ _ line).2 c last) _

theorem ofStatement_subset {line : Text} {tokens : List Token} (found : ofStatement line = .ok tokens) :
    ∀ token ∈ tokens, token.lexeme ⊆ line := by
  rw [ofStatement_eq] at found
  split at found <;> exact tokenize_subset found

theorem ofStatement_quotes {line : Text} {error : LineError} (refused : ofStatement line = .error error) :
    error.Quotes line := by
  rw [ofStatement_eq] at refused
  split at refused <;> exact tokenize_quotes refused

end Scan

theorem Expr.continueTokens_quotes {line : Text} {tokens : List Token} (inside : ∀ token ∈ tokens, token.lexeme ⊆ line)
    (part : Partial) :
    (∀ error, (continueTokens part tokens).outcome = .error (.line error) → error.Quotes line) ∧
      (continueTokens part tokens).rest ⊆ tokens := by
  fun_induction continueTokens part tokens with
  | case1 | case2 => exact ⟨by rintro error ⟨⟩, List.nil_subset _⟩
  | case3 | case7 => exact ⟨by rintro error ⟨⟩, List.Subset.refl _⟩
  | case4 part sign word rest _ operand _ ih =>
    have behind : rest ⊆ sign :: word :: rest := fun token member => List.mem_cons_of_mem _ (List.mem_cons_of_mem _ member)
    obtain ⟨quotes, left⟩ := ih fun token member => inside token (behind member)
    exact ⟨quotes, List.Subset.trans left behind⟩
  | case5 part sign word rest =>
    refine ⟨?_, List.subset_cons_self _ _⟩
    rintro error ⟨⟩
    exact .missingOperand (inside sign List.mem_cons_self) _
  | case6 part sign word rest =>
    refine ⟨?_, List.subset_cons_self _ _⟩
    rintro error ⟨⟩
    exact .unexpected (inside word (List.mem_cons_of_mem _ List.mem_cons_self)) _ _

namespace Statement

/-- What was read has its texts from the line: the name and the value of an assignment, and what an
    error quotes. -/
def TakenFrom (line : Text) : Except Failure Statement → Prop
  | .ok (.assignment name valueText _) => name ⊆ line ∧ valueText ⊆ line
  | .error (.line error) => error.Quotes line
  | _ => True

theorem readAssignment_takenFrom {line : Text} {name : Token} (inside : name.lexeme ⊆ line) (tokens : List Token)
    (sign : Token) : TakenFrom line (readAssignment line tokens name sign).outcome := by
  rw [readAssignment]
  dsimp only
  split
  · exact LineError.Quotes.missingValue _
  · exact ⟨inside, List.Subset.trans (Text.strip_subset _ _) (Text.fromIndex_subset _ line)⟩

theorem readExpression_takenFrom {line : Text} {tokens : List Token} (inside : ∀ token ∈ tokens, token.lexeme ⊆ line)
    (operand : Operand) : TakenFrom line (readExpression operand tokens).outcome := by
  obtain ⟨quotes, left⟩ := Expr.continueTokens_quotes inside ⟨none, .leaf operand⟩
  -- What stops the expression is one of the tokens, so a fault may quote it.
  rw [readExpression]
  split
  next failure rest read =>
    cases failure with
    | line error => exact quotes error (by rw [read])
    | _ => trivial
  next => trivial
  next tree last rest read =>
    rw [read] at left
    split
    · trivial
    · exact LineError.Quotes.unexpected (inside last (left List.mem_cons_self)) _ _

theorem ofTokens_takenFrom {line : Text} {tokens : List Token} (inside : ∀ token ∈ tokens, token.lexeme ⊆ line) :
    TakenFrom line (ofTokens line tokens).outcome := by
  cases tokens with
  | nil => trivial
  | cons first rest =>
    cases opens : opensAssignment (first :: rest) with
    | true =>
      cases rest with
      | nil => cases opens
      | cons sign rest =>
        rw [ofTokens_of_opensAssignment opens]
        exact readAssignment_takenFrom (inside first List.mem_cons_self) _ sign
    | false =>
      rw [ofTokens_of_not_opensAssignment opens]
      cases Operand.ofToken? first with
      | none => exact LineError.Quotes.unrecognized _
      | some operand => exact readExpression_takenFrom (fun token member => inside token (List.mem_cons_of_mem _ member)) operand

theorem ofLine_takenFrom (line : Text) : TakenFrom line (ofLine line) := by
  rw [ofLine]
  split
  · trivial
  · split
    next error refused => exact ofStatement_quotes refused
    next tokens scanned => exact ofTokens_takenFrom (ofStatement_subset scanned)

end Statement

/-- What a run tells of an error on a line quotes the line. -/
theorem Yields.quotes {environment : Environment} {line : Text} {error : LineError}
    (yields : Yields environment line (.failed error)) : error.Quotes line := by
  have taken := Statement.ofLine_takenFrom line
  cases yields with
  | rejected refused =>
    rw [refused] at taken
    exact taken
  | noNumeral accepted =>
    rw [accepted] at taken
    exact .badNumeral taken.2
  | redefinition accepted =>
    rw [accepted] at taken
    exact .redefinition taken.1 _
  | noValue accepted evaluated => exact (Statement.isOfValue_of_expression accepted evaluated).quotes line

end LineCalc
