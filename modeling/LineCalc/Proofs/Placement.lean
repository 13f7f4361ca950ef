import LineCalc.Proofs.Grammar

/-!
Where tokens stand in a line. A token stands where its lexeme is the piece of the line at its
column and cannot go on behind it (`Token.StandsIn`); tokens in order that leave out nothing but
gaps are placed (`Scan.Placed`). Placed tokens are read (`Scan.Placed.reads`) and what is read is
placed (`Scan.Reads.placed`).
-/
namespace LineCalc

/-- A token stands in a text that begins after `position` characters of its line. Its lexeme is one
    of its kind, so it is not empty, and ends only where its kind can. -/
def Token.StandsIn (token : Token) (position : Nat) (text : Text) : Prop :=
  ∃ before after, text = before ++ token.lexeme ++ after ∧ token.column = (position + before.length : Nat) + 1 ∧
    token.kind.IsLexeme token.lexeme ∧ token.kind.EndsBefore after

def Token.Covers (token : Token) (column : Int) : Prop := token.column ≤ column ∧ column < token.endColumn

namespace Scan

/-- Tokens that stand in a text, one behind the other, with nothing but spaces and tabs outside of
    them. -/
structure Placed (position : Nat) (text : Text) (tokens : List Token) : Prop where
  stands : ∀ token ∈ tokens, token.StandsIn position text
  ordered : tokens.Pairwise fun first second => first.endColumn ≤ second.column
  gaps : ∀ index c, text[index]? = some c →
    (∀ token ∈ tokens, ¬ token.Covers ((position + index : Nat) + 1)) → Text.isGap c = true

/-- The placed tokens, and the only end token behind the last character. -/
def Tokenizes (line : Text) (tokens : List Token) : Prop :=
  ∃ words, tokens = words ++ [Token.atEnd (line.length + 1)] ∧ (∀ word ∈ words, word.kind ≠ .eof) ∧
    Placed 0 line words

end Scan

namespace Token
open Scan

variable {token : Token} {position : Nat} {text : Text}

theorem StandsIn.bounds (stands : token.StandsIn position text) :
    (position : Int) < token.column ∧ token.column < token.endColumn := by
  obtain ⟨before, after, -, column, isLexeme, -⟩ := stands
  obtain ⟨c, rest, lexeme, -⟩ := isLexeme.first
  have size : token.lexeme.length = rest.length + 1 := by rw [lexeme, List.length_cons]
  rw [endColumn]
  omega

theorem standsIn_append (front : Text) :
    token.StandsIn (position + front.length) text ↔
      token.StandsIn position (front ++ text) ∧ (position + front.length : Nat) < token.column := by
  constructor
  · intro stands
    have behind := stands.bounds.1
    obtain ⟨before, after, rfl, column, isLexeme, ends⟩ := stands
    refine ⟨⟨front ++ before, after, by simp only [List.append_assoc], ?_, isLexeme, ends⟩, behind⟩
    rw [column, List.length_append, Nat.add_assoc]
  · rintro ⟨⟨before, after, whole, column, isLexeme, ends⟩, behind⟩
    have shorter : front.length ≤ before.length := by omega
    rw [List.append_assoc] at whole
    obtain ⟨more, rfl⟩ : front <+: before :=
      List.prefix_of_prefix_length_le ⟨text, rfl⟩ ⟨token.lexeme ++ after, whole.symm⟩ shorter
    rw [List.append_assoc, List.append_cancel_left_eq, ← List.append_assoc] at whole
    refine ⟨more, after, whole, ?_, isLexeme, ends⟩
    rw [column, List.length_append, Nat.add_assoc]

theorem StandsIn.column_of_gap {c : Char} {rest : Text} (stands : token.StandsIn position (c :: rest))
    (blank : Text.isGap c = true) : (position + 1 : Nat) < token.column := by
  obtain ⟨before, after, whole, column, isLexeme, -⟩ := stands
  cases before with
  | nil =>
    obtain ⟨d, more, lexeme, word⟩ := isLexeme.first
    rw [lexeme] at whole
    obtain ⟨rfl, -⟩ := List.cons.inj whole
    rw [blank] at word
    cases word
  | cons d before =>
    rw [column, List.length_cons]
    omega

end Token

namespace Scan

variable {position : Nat} {text : Text} {tokens : List Token}

/-- What is read from a text is placed in it. -/
theorem Reads.placed (reads : Reads position text tokens) : Placed position text tokens := by
  induction reads with
  | finish => exact ⟨by simp, .nil, by simp⟩
  | @gap position c rest tokens blank _ ih =>
    refine ⟨fun token member => ((Token.standsIn_append [c]).mp (ih.stands token member)).1, ih.ordered, ?_⟩
    intro index d found outside
    cases index with
    | zero =>
      obtain rfl : c = d := by simpa using found
      exact blank
    | succ index =>
      rw [← Nat.add_assoc, Nat.add_right_comm] at outside
      exact ih.gaps index d (by simpa using found) outside
  | @token position kind lexeme after tokens isLexeme ends _ ih =>
    have later := fun token member => (Token.standsIn_append lexeme).mp (ih.stands token member)
    refine ⟨?_, List.pairwise_cons.mpr ⟨fun token member => ?_, ih.ordered⟩, ?_⟩
    · intro token member
      rcases List.mem_cons.mp member with rfl | behind
      · exact ⟨[], after, rfl, by simp, isLexeme, ends⟩
      · exact (later token behind).1
    · have behind := (later token member).2
      simp only [Token.endColumn]
      omega
    · intro index d found outside
      by_cases inside : index < lexeme.length
      · refine absurd ?_ (outside _ List.mem_cons_self)
        simp only [Token.Covers, Token.endColumn]
        omega
      · obtain ⟨more, rfl⟩ := Nat.exists_eq_add_of_le (Nat.le_of_not_lt inside)
        rw [List.getElem?_append_right (Nat.le_add_right _ _), Nat.add_sub_cancel_left] at found
        refine ih.gaps more d found fun token member => ?_
        rw [Nat.add_assoc]
        exact outside token (List.mem_cons_of_mem _ member)

theorem Placed.behind (front : Text) (passed : List Token) (placed : Placed position (front ++ text) (passed ++ tokens))
    (within : ∀ token ∈ passed, token.endColumn ≤ (position + front.length : Nat) + 1)
    (beyond : ∀ token ∈ tokens, (position + front.length : Nat) < token.column) :
    Placed (position + front.length) text tokens := by
  refine ⟨?_, (List.pairwise_append.mp placed.ordered).2.1, ?_⟩
  · intro token member
    have stands := placed.stands token (List.mem_append_right _ member)
    exact (Token.standsIn_append front).mpr ⟨stands, beyond token member⟩
  · intro index c found outside
    have place : (front ++ text)[front.length + index]? = some c := by
      rw [List.getElem?_append_right (Nat.le_add_right _ _), Nat.add_sub_cancel_left, found]
    refine placed.gaps _ c place fun token member covers => ?_
    rw [← Nat.add_assoc] at covers
    rcases List.mem_append.mp member with before | later
    · have ended := within token before
      have reached := covers.2
      omega
    · exact outside token later covers

/-- Where no gap begins a text, the first of its tokens does. -/
theorem Placed.first {c : Char} {rest : Text} (placed : Placed position (c :: rest) tokens) (word : Text.isGap c = false) :
    ∃ first more, tokens = first :: more ∧ first.column = (position : Nat) + 1 := by
  have covered : ∃ token ∈ tokens, token.Covers (position + 1) := by
    refine Classical.byContradiction fun free => ?_
    have blank := placed.gaps 0 c rfl fun token member covers => free ⟨token, member, covers⟩
    rw [blank] at word
    cases word
  obtain ⟨token, member, start, -⟩ := covered
  have low := (placed.stands token member).bounds.1
  cases tokens with
  | nil => cases member
  | cons first more =>
    refine ⟨first, more, rfl, ?_⟩
    obtain ⟨positive, nonempty⟩ := (placed.stands first List.mem_cons_self).bounds
    rcases List.mem_cons.mp member with rfl | later
    · omega
    · -- A token before the one at the start would end where that begins.
      have before := (List.pairwise_cons.mp placed.ordered).1 token later
      omega

/-- Tokens that are placed in a text are read from it. -/
theorem Placed.reads : ∀ (position : Nat) (text : Text) (tokens : List Token), Placed position text tokens →
    Reads position text tokens
  | position, [], tokens, placed => by
    cases tokens with
    | nil => exact .finish
    | cons token more =>
      obtain ⟨before, after, whole, -, isLexeme, -⟩ := placed.stands token List.mem_cons_self
      obtain ⟨c, rest, lexeme, -⟩ := isLexeme.first
      simp [lexeme] at whole
  | position, c :: rest, tokens, placed => by
    cases blank : Text.isGap c with
    | true =>
      have beyond : ∀ token ∈ tokens, (position + [c].length : Nat) < token.column :=
        fun token member => (placed.stands token member).column_of_gap blank
      have behind := Placed.behind [c] [] placed (by simp) beyond
      exact .gap blank (reads (position + 1) rest tokens behind)
    | false =>
      obtain ⟨first, more, rfl, start⟩ := placed.first blank
      obtain ⟨before, after, whole, column, isLexeme, ends⟩ := placed.stands first List.mem_cons_self
      obtain rfl : before = [] := List.eq_nil_of_length_eq_zero (by omega)
      obtain ⟨kind, lexeme, place⟩ := first
      obtain rfl : place = (position : Nat) + 1 := start
      obtain ⟨d, letters, rfl, -⟩ := isLexeme.first
      rw [List.nil_append] at whole
      rw [whole] at placed ⊢
      have beyond : ∀ token ∈ more, (position + (d :: letters).length : Nat) < token.column := by
        intro token member
        have behind := (List.pairwise_cons.mp placed.ordered).1 token member
        simp only [Token.endColumn] at behind
        omega
      -- A lexeme is not empty, so less is left to read.
      have shorter : after.length ≤ rest.length := by
        have sizes := congrArg List.length whole
        simp only [List.length_cons, List.length_append] at sizes
        omega
      have within : ∀ token ∈ [(⟨kind, d :: letters, position + 1⟩ : Token)],
          token.endColumn ≤ (position + (d :: letters).length : Nat) + 1 := by
        simp only [List.mem_singleton, forall_eq, Token.endColumn]
        omega
      have behind := Placed.behind (d :: letters) _ placed within beyond
      exact .token isLexeme ends (reads _ after more behind)
termination_by _ text => text.length

theorem tokenize_of_reads {line : Text} {words : List Token} (reads : Reads 0 line words) :
    tokenize none line = .ok (words ++ [Token.atEnd (line.length + 1)]) := by
  rw [tokenize, ofText, Option.map_none, scanFrom_of_reads reads, result, Nat.zero_add]

theorem tokenize_iff_tokenizes {line : Text} {tokens : List Token} :
    tokenize none line = .ok tokens ↔ Tokenizes line tokens := by
  constructor
  · intro scanned
    have reads := (tokenize_eq_ok scanned).1
    cases scanned.symm.trans (tokenize_of_reads reads)
    exact ⟨_, rfl, fun word member => (reads.isLexeme word member).ne_eof, reads.placed⟩
  · rintro ⟨words, rfl, -, placed⟩
    exact tokenize_of_reads (Placed.reads 0 line words placed)

/-- The tokens of a line that can be scanned are placed in it, and no other tokens are. -/
theorem tokenize_eq_ok_iff (line : Text) (tokens : List Token) :
    tokenize none line = .ok tokens ↔ Tokenizes line tokens ∧ ∀ other, Tokenizes line other → other = tokens := by
  constructor
  · intro scanned
    refine ⟨tokenize_iff_tokenizes.mp scanned, fun other tokenizes => ?_⟩
    cases scanned.symm.trans (tokenize_iff_tokenizes.mpr tokenizes)
    rfl
  · rintro ⟨tokenizes, -⟩
    exact tokenize_iff_tokenizes.mpr tokenizes

/-- A name may follow on a number, and goes on with the digits behind its letters. -/
example : (ofText none "9x9:=1".toList).tokens =
    [⟨.int, ['9'], 1⟩, ⟨.ident, ['x', '9'], 2⟩, ⟨.assign, [':', '='], 4⟩, ⟨.int, ['1'], 6⟩] := by decide +kernel

end Scan
end LineCalc
