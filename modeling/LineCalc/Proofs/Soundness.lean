import LineCalc.Proofs.Notation

/-!
What is read as a JSON value is storable. The words that are read hold no integer of too many
digits and no number that a double cannot be (`Json.readTokens_sound`), and the open frames hold
storable values and each key once, whatever word comes next (`Json.readValue_sound`).
-/
namespace LineCalc.Json
open Numeral Number

/-! ## Words -/

/-- A word that may stand in the text of a storable value. -/
def Token.Sound : Token → Prop
  | .int value => (Nat.toDigits 10 value.natAbs).length ≤ Numeral.digitLimit
  | .real value => value.Fits
  | _ => True

theorem isDigits_spanWhole? {text whole after : Text} (found : spanWhole? text = some (whole, after)) :
    IsDigits whole := by
  unfold spanWhole? at found
  split at found
  next =>
    cases found
    exact ⟨List.cons_ne_nil _ _, List.forall_mem_singleton.mpr rfl⟩
  next c rest _ =>
    split at found
    next digit =>
      cases found
      refine ⟨?_, Munch.inside_takeWhile _ _⟩
      rw [List.takeWhile_cons_of_pos digit]
      exact List.cons_ne_nil _ _
    next => cases found
  next => cases found

theorem isDigits_spelled? {text after : Text} {spelling : Spelling} (found : spelled? text = some (spelling, after)) :
    IsDigits spelling.whole := by
  unfold spelled? at found
  split at found
  next unsigned _ =>
    obtain ⟨⟨whole, behind⟩, span, rest⟩ := Option.bind_eq_some_iff.mp found
    cases rest
    exact isDigits_spanWhole? span

theorem length_toDigits_ofDigitChars {digits : Text} (written : IsDigits digits) :
    (Nat.toDigits 10 (Nat.ofDigitChars 10 digits 0)).length ≤ digits.length := by
  rw [toDigits_significant written.2]
  split
  · exact List.length_pos_iff.mpr written.1
  · exact (List.dropWhile_sublist _).length_le

theorem readNumber?_sound {text after : Text} {token : Token} (read : readNumber? text = some (token, after)) :
    token.Sound := by
  unfold readNumber? at read
  split at read
  · cases read
  next spelling rest found =>
    split at read
    · cases read
      exact Double.fits_ofDecimal _ _
    split at read
    next short =>
      cases read
      have size : spelling.integer.natAbs = Nat.ofDigitChars 10 spelling.whole 0 := by
        rw [Spelling.integer, Double.signed, valueOf_eq]
        split <;> omega
      rw [Token.Sound, size]
      exact Nat.le_trans (length_toDigits_ofDigitChars (isDigits_spelled? found)) short
    next => cases read

theorem readWord?_sound {text after : Text} {token : Token} (read : readWord? text = some (token, after)) :
    token.Sound := by
  obtain ⟨⟨word, token⟩, member, found⟩ := List.exists_of_findSome?_eq_some read
  have sound : ∀ entry ∈ words, entry.2.Sound := by
    intro entry member
    simp only [words, List.mem_cons, List.not_mem_nil, or_false] at member
    rcases member with rfl | rfl | rfl | rfl | rfl | rfl
    · trivial
    · trivial
    · trivial
    · exact .nan
    · exact .infinite false
    · exact .infinite true
  obtain ⟨rest, -, same⟩ := Option.map_eq_some_iff.mp found
  cases same
  exact sound _ member

theorem readToken?_sound {c : Char} {rest after : Text} {token : Token}
    (read : readToken? c rest = some (token, after)) : token.Sound := by
  unfold readToken? at read
  split at read
  next mark found =>
    cases read
    unfold mark? at found
    split at found <;> cases found <;> trivial
  split at read
  · obtain ⟨⟨units, rest⟩, -, same⟩ := Option.map_eq_some_iff.mp read
    cases same
    trivial
  · rcases Option.or_eq_some_iff.mp read with number | ⟨-, word⟩
    · exact readNumber?_sound number
    · exact readWord?_sound word

theorem readTokens_sound {count : Nat} {text : Text} {tokens : List Token}
    (read : readTokens count text = some tokens) : ∀ token ∈ tokens, token.Sound := by
  induction count generalizing text tokens with
  | zero =>
    unfold readTokens at read
    split at read <;> cases read
    exact List.forall_mem_nil _
  | succ count ih =>
    unfold readTokens at read
    split at read
    · cases read
      exact List.forall_mem_nil _
    split at read
    · cases read
    next token after found =>
      obtain ⟨further, rest, rfl⟩ := Option.map_eq_some_iff.mp read
      exact List.forall_mem_cons.mpr ⟨readToken?_sound found, ih rest⟩

/-! ## Values -/

/-- Storable values, and each key once. -/
def Frame.Sound : Frame → Prop
  | .array before => ∀ item ∈ before, Storable item
  | .field before _ => (before.map Prod.fst).Nodup ∧ ∀ field ∈ before, Storable field.2

theorem mem_putField {key : Text.Units} {value : Json} {fields : List (Text.Units × Json)} {field : Text.Units × Json}
    (member : field ∈ putField key value fields) : field = (key, value) ∨ field ∈ fields := by
  induction fields with
  | nil => exact Or.inl (List.mem_singleton.mp member)
  | cons first rest ih =>
    obtain ⟨other, old⟩ := first
    rw [putField] at member
    split at member <;> rcases List.mem_cons.mp member with front | behind
    · exact Or.inl front
    · exact Or.inr (List.mem_cons_of_mem _ behind)
    · exact Or.inr (front ▸ List.mem_cons_self)
    · exact (ih behind).imp_right (List.mem_cons_of_mem _)

theorem nodup_putField (key : Text.Units) (value : Json) {fields : List (Text.Units × Json)}
    (once : (fields.map Prod.fst).Nodup) : ((putField key value fields).map Prod.fst).Nodup := by
  induction fields with
  | nil => exact List.pairwise_singleton _ _
  | cons first rest ih =>
    obtain ⟨other, old⟩ := first
    obtain ⟨apart, later⟩ := List.nodup_cons.mp once
    rw [putField]
    split
    next same => exact same ▸ once
    next differs =>
      refine List.nodup_cons.mpr ⟨?_, ih later⟩
      intro member
      obtain ⟨field, inside, name⟩ := List.mem_map.mp member
      rcases mem_putField inside with rfl | before
      · exact differs name.symm
      · exact apart (List.mem_map.mpr ⟨field, before, name⟩)

theorem Frame.Sound.putField {before : List (Text.Units × Json)} {key : Text.Units} {value : Json}
    (sound : (Frame.field before key).Sound) (storable : Storable value) :
    ((putField key value before).map Prod.fst).Nodup ∧ ∀ field ∈ Json.putField key value before, Storable field.2 := by
  refine ⟨nodup_putField key value sound.1, fun field member => ?_⟩
  rcases mem_putField member with rfl | before
  · exact storable
  · exact sound.2 field before

/-- Reading goes on to a storable value. -/
def ReadsStorable (stack : List Frame) (tokens : List Token) : Prop :=
  (∀ frame ∈ stack, frame.Sound) → (∀ token ∈ tokens, token.Sound) →
    ∀ result, readValue stack tokens = some result → Storable result

/-- A storable value settles into a storable one. -/
def SettlesStorable (stack : List Frame) (value : Json) (tokens : List Token) : Prop :=
  (∀ frame ∈ stack, frame.Sound) → Storable value → (∀ token ∈ tokens, token.Sound) →
    ∀ result, settle stack value tokens = some result → Storable result

/-- What is read inside of sound frames is storable, and so is what a storable value settles into. -/
theorem readValue_sound :
    (∀ stack tokens, ReadsStorable stack tokens) ∧ ∀ stack value tokens, SettlesStorable stack value tokens := by
  -- The induction is that of the reader, with a case for each way it goes on and each way it gives up.
  refine readValue.mutual_induct ReadsStorable SettlesStorable ?null ?bool ?int ?real ?str ?emptyArray ?array
    ?emptyObject ?object ?noValue ?done ?unfinished ?nextField ?strayField ?nextItem ?strayItem ?closeArray
    ?strayBracket ?closeObject ?strayBrace ?noEnd
  case null =>
    intro stack rest ih frames words
    exact ih frames .null (List.forall_mem_cons.mp words).2
  case bool =>
    intro stack value rest ih frames words
    exact ih frames (.bool value) (List.forall_mem_cons.mp words).2
  case int =>
    intro stack value rest ih frames words
    obtain ⟨short, later⟩ := List.forall_mem_cons.mp words
    exact ih frames (.int short) later
  case real =>
    intro stack value rest ih frames words
    obtain ⟨fits, later⟩ := List.forall_mem_cons.mp words
    exact ih frames (.real fits) later
  case str =>
    intro stack units rest ih frames words
    exact ih frames (.str units) (List.forall_mem_cons.mp words).2
  case emptyArray =>
    intro stack rest ih frames words
    exact ih frames (.arr (List.forall_mem_nil _)) fun token member => words token (by simp [member])
  case array =>
    intro stack rest noClose ih frames words result read
    rw [readValue] at read
    · exact ih (List.forall_mem_cons.mpr ⟨List.forall_mem_nil _, frames⟩) (List.forall_mem_cons.mp words).2 result read
    · exact noClose
  case emptyObject =>
    intro stack rest ih frames words
    exact ih frames (.obj List.nodup_nil (List.forall_mem_nil _)) fun token member => words token (by simp [member])
  case object =>
    intro stack key rest ih frames words
    exact ih (List.forall_mem_cons.mpr ⟨⟨List.nodup_nil, List.forall_mem_nil _⟩, frames⟩) fun token member =>
      words token (by simp [member])
  case noValue =>
    intros
    intro _ _ _ read
    rw [readValue] at read
    · cases read
    all_goals assumption
  case done =>
    intro stack value empty _ storable _ result settled
    rw [settle, if_pos empty] at settled
    cases settled
    exact storable
  case unfinished =>
    intro stack value unfinished _ _ _ result settled
    rw [settle, if_neg unfinished] at settled
    cases settled
  case nextField =>
    intro value key rest before opened outer ih frames storable words
    obtain ⟨frame, later⟩ := List.forall_mem_cons.mp frames
    exact ih (List.forall_mem_cons.mpr ⟨frame.putField storable, later⟩) fun token member =>
      words token (by simp [member])
  case strayField =>
    intro stack value key rest stray _ _ _ result settled
    rw [settle] at settled
    · cases settled
    · exact stray
  case nextItem =>
    intro value rest noField before outer ih frames storable words result settled
    obtain ⟨frame, later⟩ := List.forall_mem_cons.mp frames
    rw [settle] at settled
    · exact ih (List.forall_mem_cons.mpr ⟨List.forall_mem_cons.mpr ⟨storable, frame⟩, later⟩)
        (List.forall_mem_cons.mp words).2 result settled
    · exact noField
  case strayItem =>
    intro stack value rest noField stray _ _ _ result settled
    rw [settle] at settled
    · cases settled
    · exact noField
    · exact stray
  case closeArray =>
    intro value rest before outer ih frames storable words
    obtain ⟨frame, later⟩ := List.forall_mem_cons.mp frames
    refine ih later (.arr fun item member => ?_) (List.forall_mem_cons.mp words).2
    exact List.forall_mem_cons.mpr ⟨storable, frame⟩ item (List.mem_reverse.mp member)
  case strayBracket =>
    intro stack value rest stray _ _ _ result settled
    rw [settle] at settled
    · cases settled
    · exact stray
  case closeObject =>
    intro value rest before opened outer ih frames storable words
    obtain ⟨frame, later⟩ := List.forall_mem_cons.mp frames
    obtain ⟨once, each⟩ := frame.putField storable
    exact ih later (.obj once each) (List.forall_mem_cons.mp words).2
  case strayBrace =>
    intro stack value rest stray _ _ _ result settled
    rw [settle] at settled
    · cases settled
    · exact stray
  case noEnd =>
    intros
    intro _ _ _ _ settled
    rw [settle] at settled
    · cases settled
    all_goals assumption

theorem storable_of_read? {text : Text} {value : Json} (read : read? text = some value) : Storable value := by
  obtain ⟨tokens, words, found⟩ := Option.bind_eq_some_iff.mp read
  exact readValue_sound.1 [] tokens (List.forall_mem_nil _) (readTokens_sound words) value found

end LineCalc.Json
