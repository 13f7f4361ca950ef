import Mathlib.Order.Bounds.Basic
import LineCalc.Proofs.Grammar

/-!
Where a scan stops. A limited scan stops right behind the last token it has room for
(`Scan.tokenize_limit`), one without a limit behind the first character that is stray, which its
neighbours settle (`Scan.IsStray`), or at the end of the line
(`Scan.tokenize_eq_error_iff_strayAt`).
-/
namespace LineCalc
namespace Scan

/-! ## Limits -/

/-- Below one a limited scan finds nothing but the end, at the first column. Up to the count of the
    tokens of the scan without a limit, it takes as many of them and ends right behind the last,
    whatever stands there. With a higher limit it is the scan without one. -/
theorem tokenize_limit (limit : Int) (line : Text) :
    (limit ≤ 0 → tokenize (some limit) line = .ok [Token.atEnd 1]) ∧
    (1 ≤ limit → limit ≤ (ofText none line).tokens.length → ∃ front last behind,
      (ofText none line).tokens = front ++ last :: behind ∧ limit = front.length + 1 ∧
        tokenize (some limit) line = .ok (front ++ [last, Token.atEnd last.endColumn])) ∧
    ((ofText none line).tokens.length < limit → tokenize (some limit) line = tokenize none line) := by
  simp only [tokenize, ofText, Option.map_some, Option.map_none]
  refine ⟨fun low => ?_, fun low high => ?_, fun beyond => ?_⟩
  · rw [Int.toNat_of_nonpos low, scanFrom_full]
    rfl
  · obtain ⟨before, rfl⟩ : ∃ before : Nat, limit = before + 1 := ⟨(limit - 1).toNat, by omega⟩
    have inside : before < (scanFrom none 0 line).tokens.length := by omega
    have whole : (scanFrom none 0 line).tokens =
        (scanFrom none 0 line).tokens.take before ++ (scanFrom none 0 line).tokens[before] ::
          (scanFrom none 0 line).tokens.drop (before + 1) := by simp
    refine ⟨_, _, _, whole, by rw [List.length_take_of_le (Nat.le_of_lt inside)], ?_⟩
    obtain ⟨stop, scanned, ends⟩ := scanFrom_of_getElem? (List.getElem?_eq_getElem inside)
    rw [Int.toNat_natCast_add_one, scanned, result, ends, List.take_succ_eq_append_getElem inside, List.append_assoc]
    rfl
  · obtain ⟨count, rfl⟩ : ∃ count : Nat, limit = count + 1 := ⟨(limit - 1).toNat, by omega⟩
    have fewer : (scanFrom none 0 line).tokens.length ≤ count := by omega
    rw [Int.toNat_natCast_add_one, scanFrom_of_length_le fewer]

theorem tokenize_limit_before_refusal :
    tokenize (some (-1)) "x:= 2 ? 3".toList = .ok [Token.atEnd 1] ∧
      (ofText none "x:= 2 ? 3".toList).refused = some '?' ∧ (2 : Int) ≤ (ofText none "x:= 2 ? 3".toList).tokens.length ∧
      (∃ front last behind, (ofText none "x:= 2 ? 3".toList).tokens = front ++ last :: behind ∧ 2 = (front.length : Int) + 1 ∧
        tokenize (some 2) "x:= 2 ? 3".toList = .ok (front ++ [last, Token.atEnd last.endColumn])) ∧
      tokenize (some 4) "x:= 2 ? 3".toList = tokenize none "x:= 2 ? 3".toList := by
  have three : (ofText none "x:= 2 ? 3".toList).tokens.length = 3 := by decide +kernel
  exact ⟨(tokenize_limit (-1) _).1 (by decide), by decide +kernel, by rw [three]; decide,
    (tokenize_limit 2 _).2.1 (by decide) (by rw [three]; decide), (tokenize_limit 4 _).2.2 (by rw [three]; decide)⟩

/-! ## Stray characters -/

/-- The characters that tokens and gaps are written with. -/
def isWritten (c : Char) : Bool := Text.isGap c || isNameCharacter c || c ∈ ['+', '-', '*', '/', '%', ':', '=']

/-- Nothing is written with the character, or it is a colon without an equals sign behind it, or an
    equals sign without a colon in front. -/
def IsStray (before : Option Char) (c : Char) (after : Option Char) : Prop :=
  isWritten c = false ∨ c = ':' ∧ after ≠ some '=' ∨ c = '=' ∧ before ≠ some ':'

instance (before : Option Char) (c : Char) (after : Option Char) : Decidable (IsStray before c after) :=
  inferInstanceAs (Decidable (_ ∨ _ ∨ _))

/-- The character at a position of a line, counted from 0, is stray. -/
def StrayAt (text : Text) (position : Nat) : Prop :=
  ∃ c ∈ text[position]?, IsStray (text.take position).getLast? c text[position + 1]?

instance (text : Text) (position : Nat) : Decidable (StrayAt text position) :=
  Option.decidableExistsMem _

theorem strayAt_append {front rest : Text} {c : Char} :
    StrayAt (front ++ c :: rest) front.length ↔ IsStray front.getLast? c rest.head? := by
  have next : (front ++ c :: rest)[front.length + 1]? = rest.head? := by
    rw [List.getElem?_append_right (Nat.le_add_right _ _), Nat.add_sub_cancel_left, List.head?_eq_getElem?]
    rfl
  simp [StrayAt, next]

/-- Only the halves of the assignment sign need a neighbour. -/
theorem not_isStray {c : Char} (written : isWritten c = true) (notColon : c ≠ ':') (notEquals : c ≠ '=')
    (before after : Option Char) : ¬ IsStray before c after := by
  simp [IsStray, written, notColon, notEquals]

theorem not_isStray_of_isGap {c : Char} (blank : Text.isGap c = true) (before after : Option Char) :
    ¬ IsStray before c after := by
  rcases isGap_iff.mp blank with rfl | rfl <;> exact not_isStray (by decide) (by decide) (by decide) before after

theorem not_isStray_of_isNameCharacter {c : Char} (inName : isNameCharacter c = true) (before after : Option Char) :
    ¬ IsStray before c after := by
  refine not_isStray (by simp [isWritten, inName]) ?_ ?_ before after <;>
    (rintro rfl; exact absurd inName (by decide))

/-- No character of a token is stray in its line. -/
theorem not_isStray_of_isLexeme {kind : TokenKind} {front more : Text} {c : Char}
    (isLexeme : kind.IsLexeme (front ++ c :: more)) (before after : Text) :
    ¬ IsStray (before ++ front).getLast? c (more ++ after).head? := by
  have inside : c ∈ front ++ c :: more := by simp
  cases isLexeme with
  | name written => exact not_isStray_of_isNameCharacter (written.characters c inside) _ _
  | number written =>
    exact not_isStray_of_isNameCharacter (Bool.or_eq_true_iff.mpr (Or.inr (written.2 c inside))) _ _
  | symbol member =>
    rcases TokenKind.symbol_forms member with pair | ⟨d, single, notColon⟩
    · rcases front with _ | ⟨colon, _ | ⟨d, front⟩⟩
      · obtain ⟨rfl, rfl⟩ := List.cons.inj pair
        simp [IsStray, isWritten]
      · obtain ⟨rfl, equals⟩ := List.cons.inj pair
        obtain ⟨rfl, rfl⟩ := List.cons.inj equals
        simp [IsStray, isWritten]
      · simp at pair
    · have settled : ∀ entry ∈ TokenKind.symbols, entry.1.length = 1 → (entry.1.all fun d => isWritten d && d != '=') = true := by
        decide
      rw [single] at member inside
      obtain rfl := List.mem_singleton.mp inside
      have fits := List.all_eq_true.mp (settled _ member rfl) c inside
      rw [Bool.and_eq_true, bne_iff_ne] at fits
      exact not_isStray fits.1 notColon fits.2 _ _

theorem getLast?_ne_colon {kind : TokenKind} {lexeme : Text} (isLexeme : kind.IsLexeme lexeme) :
    lexeme.getLast? ≠ some ':' := by
  intro colon
  obtain ⟨front, rfl⟩ := List.getLast?_eq_some_iff.mp colon
  exact not_isStray_of_isLexeme isLexeme [] [] (Or.inr (Or.inl ⟨rfl, nofun⟩))

/-- A character that is neither blank nor stray begins a token, where it does not stand behind
    a colon. -/
theorem exists_munch {before : Option Char} {c : Char} {rest : Text} (closed : before ≠ some ':')
    (word : Text.isGap c = false) (fitting : ¬ IsStray before c rest.head?) : ∃ munch, Munch.ofText? c rest = some munch := by
  simp only [IsStray, not_or, not_and_not_right, Bool.not_eq_false] at fitting
  obtain ⟨written, colon, equals⟩ := fitting
  simp only [isWritten, word, Bool.false_or, Bool.or_eq_true, decide_eq_true_eq] at written
  rcases written with inName | sign
  · rw [Munch.ofText?]
    rcases Bool.or_eq_true_iff.mp inName with letter | digit
    · exact ⟨_, if_pos letter⟩
    · rw [isAlpha_of_isDigit digit, if_neg Bool.false_ne_true]
      exact ⟨_, if_pos digit⟩
  · by_cases half : c = ':'
    · obtain ⟨after, rfl⟩ := List.head?_eq_some_iff.mp (colon half)
      subst half
      exact ⟨_, Munch.ofText?_lexeme (.symbol (show ([':', '='], TokenKind.assign) ∈ _ by decide)) trivial⟩
    · have single : (['+', '-', '*', '/', '%', ':', '='].all fun d =>
          d == ':' || d == '=' || TokenKind.symbols.any fun entry => entry.1 == [d]) = true := by decide
      have whole : c ≠ '=' := fun same => closed (equals same)
      have listed := List.all_eq_true.mp single c sign
      simp only [Bool.or_eq_true, beq_iff_eq, half, whole, false_or, List.any_eq_true] at listed
      obtain ⟨⟨text, kind⟩, member, rfl⟩ := listed
      exact ⟨_, Munch.ofText?_lexeme (.symbol member) (TokenKind.endsBefore_symbol member)⟩

/-- The scanned part of a line has no stray character, and the last one does not need the first
    character of the text that is left. -/
structure Clear (passed text : Text) : Prop where
  clean : ∀ position < passed.length, ¬ StrayAt (passed ++ text) position
  closed : passed.getLast? ≠ some ':'

namespace Clear

variable {passed text : Text}

theorem append {piece : Text} (clear : Clear passed (piece ++ text))
    (inert : ∀ front c more, piece = front ++ c :: more → ¬ IsStray (passed ++ front).getLast? c (more ++ text).head?)
    (closed : piece.getLast? ≠ some ':') : Clear (passed ++ piece) text := by
  constructor
  · intro position within
    rw [List.append_assoc]
    by_cases inside : position < passed.length
    · exact clear.clean position inside
    · obtain ⟨index, rfl⟩ := Nat.exists_eq_add_of_le (Nat.le_of_not_lt inside)
      have fits : index < piece.length := by
        rw [List.length_append] at within
        omega
      have split : piece = piece.take index ++ piece[index] :: piece.drop (index + 1) := by simp
      have size : (passed ++ piece.take index).length = passed.length + index := by
        rw [List.length_append, List.length_take_of_le (Nat.le_of_lt fits)]
      have whole : passed ++ (piece ++ text) =
          (passed ++ piece.take index) ++ piece[index] :: (piece.drop (index + 1) ++ text) := by
        conv_lhs => rw [split]
        simp only [List.append_assoc, List.cons_append]
      rw [whole, ← size, strayAt_append]
      exact inert _ _ _ split
  · rw [List.getLast?_append]
    cases last : piece.getLast? with
    | none => exact clear.closed
    | some c => rwa [last] at closed

theorem gap {c : Char} (clear : Clear passed (c :: text)) (blank : Text.isGap c = true) : Clear (passed ++ [c]) text := by
  refine @append passed text [c] clear (fun front d more whole => ?_) ?_
  · have same : d = c := List.mem_singleton.mp (whole ▸ by simp)
    exact not_isStray_of_isGap (same ▸ blank) _ _
  · rintro ⟨⟩
    exact absurd blank (by decide)

theorem token {kind : TokenKind} {lexeme : Text} (clear : Clear passed (lexeme ++ text)) (isLexeme : kind.IsLexeme lexeme) :
    Clear (passed ++ lexeme) text :=
  clear.append (fun _ _ _ whole => not_isStray_of_isLexeme (whole ▸ isLexeme) _ _) (getLast?_ne_colon isLexeme)

end Clear

/-- A scan stops behind the first stray character of a line, or at its end if there is none. -/
def EndsAtStray (text : Text) (scan : Scan) : Prop :=
  match scan.refused with
  | none => ∀ position, ¬ StrayAt text position
  | some c => ∃ position, IsLeast {p | StrayAt text p} position ∧ text[position]? = some c ∧ scan.stop = position + 1

theorem scanFrom_endsAtStray (position : Nat) (text : Text) : ∀ passed, passed.length = position → Clear passed text →
    EndsAtStray (passed ++ text) (scanFrom none position text) := by
  induction position, text using along with
  | finish position =>
    rintro passed rfl clear
    rw [scanFrom_nil]
    intro position stray
    obtain ⟨c, found, -⟩ := id stray
    have within := (List.getElem?_eq_some_iff.mp found).1
    rw [List.append_nil] at within
    exact clear.clean position within stray
  | gap position c rest blank ih =>
    rintro passed rfl clear
    have behind := ih (passed ++ [c]) (by simp) (clear.gap blank)
    rw [List.append_assoc] at behind
    rw [scanFrom_gap unlimited blank]
    exact behind
  | refused position c rest word missing =>
    rintro passed rfl clear
    have stray : StrayAt (passed ++ c :: rest) passed.length := by
      rw [strayAt_append]
      refine Classical.byContradiction fun fitting => ?_
      obtain ⟨munch, found⟩ := exists_munch clear.closed word fitting
      cases missing.symm.trans found
    rw [scanFrom_refused unlimited word missing]
    refine ⟨passed.length, ⟨stray, fun other strayOther => ?_⟩, by simp, rfl⟩
    exact Nat.le_of_not_lt fun before => clear.clean other before strayOther
  | token position c rest munch word found ih =>
    rintro passed rfl clear
    obtain ⟨whole, isLexeme, -⟩ := Munch.ofText?_eq_some_iff.mp found
    rw [scanFrom_token unlimited word found]
    rw [← whole] at clear ⊢
    have behind := ih (passed ++ munch.lexeme) (by simp) (clear.token isLexeme)
    rw [List.append_assoc] at behind
    exact behind

/-- The error is that of the first stray character, at its column, and the scan stops right behind
    it. -/
theorem tokenize_eq_error_iff_strayAt (text : Text) :
    ((∃ error, tokenize none text = .error error) ↔ ∃ position, StrayAt text position) ∧
    (∀ position, IsLeast {p | StrayAt text p} position → ∃ c, text[position]? = some c ∧
      tokenize none text = .error (.invalidCharacter [c] (position + 1)) ∧ (ofText none text).stop = position + 1) ∧
    ((∀ position, ¬ StrayAt text position) → ∃ tokens, tokenize none text = .ok tokens) := by
  have ends : EndsAtStray text (ofText none text) := scanFrom_endsAtStray 0 text [] rfl ⟨nofun, nofun⟩
  unfold EndsAtStray at ends
  split at ends
  next accepted =>
    have scanned : ∃ tokens, tokenize none text = .ok tokens := ⟨_, by rw [tokenize, result, accepted]⟩
    refine ⟨⟨?_, ?_⟩, fun position least => absurd least.1 (ends position), fun _ => scanned⟩
    · rintro ⟨error, failed⟩
      obtain ⟨tokens, scanned⟩ := scanned
      cases failed.symm.trans scanned
    · rintro ⟨position, stray⟩
      exact absurd stray (ends position)
  next c refused =>
    obtain ⟨position, least, found, stop⟩ := ends
    have failed : tokenize none text = .error (.invalidCharacter [c] (position + 1)) := by
      rw [tokenize, result, refused, stop]
      rfl
    refine ⟨⟨fun _ => ⟨position, least.1⟩, fun _ => ⟨_, failed⟩⟩, fun other leastOther => ?_,
      fun clean => absurd least.1 (clean position)⟩
    obtain rfl := leastOther.unique least
    exact ⟨c, found, failed, stop⟩

/-- The first colon is stray, and the question mark behind is not reached. -/
theorem tokenize_eq_error_iff_strayAt_colon :
    (IsLeast {p | StrayAt "x ::= ?".toList p} 2 ∧ ∃ c, "x ::= ?".toList[2]? = some c ∧
      tokenize none "x ::= ?".toList = .error (.invalidCharacter [c] 3) ∧ (ofText none "x ::= ?".toList).stop = 3) ∧
    (∀ position, ¬ StrayAt [':', '='] position) ∧ ∃ tokens, tokenize none [':', '='] = .ok tokens := by
  have least : IsLeast {p | StrayAt "x ::= ?".toList p} 2 := by
    have stray : StrayAt "x ::= ?".toList 2 := by decide
    refine ⟨stray, fun position stray => Nat.le_of_not_lt fun before => ?_⟩
    have clean : ∀ p < 2, ¬ StrayAt "x ::= ?".toList p := by decide
    exact clean position before stray
  have clean : ∀ position, ¬ StrayAt [':', '='] position := by
    rintro position ⟨c, found, stray⟩
    have within : ∀ p < 2, ¬ StrayAt [':', '='] p := by decide
    exact within position (List.getElem?_eq_some_iff.mp found).1 ⟨c, found, stray⟩
  exact ⟨⟨least, (tokenize_eq_error_iff_strayAt _).2.1 2 least⟩, clean, (tokenize_eq_error_iff_strayAt _).2.2 clean⟩

end Scan
end LineCalc
