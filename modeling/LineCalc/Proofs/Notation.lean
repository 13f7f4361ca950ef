import LineCalc.Json.Reader
import LineCalc.Proofs.Words

/-!
A storable JSON value comes back from its text. What is written are the words of the value between
spaces (`Json.Storable.readsBack`), and the words are read as the value inside of whatever frames
are open (`Json.Storable.readsAs`).
-/
namespace LineCalc.Json
open Number

/-! ## The words of a value -/

mutual

/-- The words that a value is written with. -/
def tokens : Json → List Token
  | null => [.null]
  | bool value => [.bool value]
  | int value => [.int value]
  | real value => [.real value]
  | str units => [.str units]
  | arr [] => [.leftBracket, .rightBracket]
  | arr (item :: rest) => .leftBracket :: (tokens item ++ (itemTokens rest ++ [.rightBracket]))
  | obj [] => [.leftBrace, .rightBrace]
  | obj ((key, value) :: rest) =>
    .leftBrace :: .str key :: .colon :: (tokens value ++ (fieldTokens rest ++ [.rightBrace]))

/-- The words of the items behind the first one. -/
def itemTokens : List Json → List Token
  | [] => []
  | item :: rest => .comma :: (tokens item ++ itemTokens rest)

/-- The words of the fields behind the first one. -/
def fieldTokens : List (Text.Units × Json) → List Token
  | [] => []
  | (key, value) :: rest => .comma :: .str key :: .colon :: (tokens value ++ fieldTokens rest)

end

/-- Integers are no longer than those that are read, other numbers are of double precision, and each
    key stands once. -/
inductive Storable : Json → Prop
  | null : Storable null
  | bool (value : Bool) : Storable (bool value)
  | int {value : Int} (short : (Nat.toDigits 10 value.natAbs).length ≤ Numeral.digitLimit) : Storable (int value)
  | real {value : Double} (fits : value.Fits) : Storable (real value)
  | str (units : Text.Units) : Storable (str units)
  | arr {items : List Json} (each : ∀ item ∈ items, Storable item) : Storable (arr items)
  | obj {fields : List (Text.Units × Json)} (once : (fields.map Prod.fst).Nodup)
      (each : ∀ field ∈ fields, Storable field.2) : Storable (obj fields)

/-- A text that is made of words, with spaces in front of each and behind the last. -/
inductive Lexes : Text → List Token → Prop
  | nil : Lexes [] []
  | space {c : Char} {text : Text} {tokens : List Token} (space : isSpace c = true) (further : Lexes text tokens) :
      Lexes (c :: text) tokens
  | word {c : Char} {word after : Text} {token : Token} {tokens : List Token} (noSpace : isSpace c = false)
      (read : readToken? c (word ++ after) = some (token, after)) (further : Lexes after tokens) :
      Lexes (c :: (word ++ after)) (token :: tokens)

namespace Lexes
variable {text : Text} {tokens : List Token}

/-- No more words than characters. -/
theorem length_le (lexes : Lexes text tokens) : tokens.length ≤ text.length := by
  induction lexes with
  | nil => exact Nat.le_refl _
  | space _ _ ih => exact Nat.le_succ_of_le ih
  | word _ _ _ ih =>
    simp only [List.length_cons, List.length_append]
    omega

theorem readTokens (lexes : Lexes text tokens) {count : Nat} (room : tokens.length ≤ count) :
    readTokens count text = some tokens := by
  induction lexes generalizing count with
  | nil => cases count <;> rfl
  | space space _ ih =>
    have rest := ih room
    cases count <;> simpa only [Json.readTokens, List.dropWhile_cons_of_pos space] using rest
  | word noSpace read _ ih =>
    cases count with
    | zero => cases room
    | succ count =>
      have rest := ih (Nat.le_of_succ_le_succ room)
      simp [Json.readTokens, noSpace, read, rest]

theorem mark {c : Char} {token : Token} (noSpace : isSpace c = false) (mark : mark? c = some token)
    (further : Lexes text tokens) : Lexes (c :: text) (token :: tokens) := by
  have read : readToken? c ([] ++ text) = some (token, text) := by rw [readToken?, List.nil_append, mark]
  exact word noSpace read further

theorem letters {c : Char} (word : Text) {token : Token} (noSpace : isSpace c = false)
    (read : ∀ after, readToken? c (word ++ after) = some (token, after)) (further : Lexes text tokens) :
    Lexes (c :: word ++ text) (token :: tokens) := Lexes.word noSpace (read text) further

theorem lineStart (depth : Nat) (further : Lexes text tokens) : Lexes (lineStart depth ++ text) tokens := by
  refine space (by decide) ?_
  generalize 2 * depth = width
  induction width with
  | zero => exact further
  | succ width ih => exact space (by decide) ih

theorem number {written : Text} {token : Token} (nonempty : written ≠ [])
    (read : readNumber? (written ++ text) = some (token, text)) (further : Lexes text tokens) :
    Lexes (written ++ text) (token :: tokens) := by
  obtain ⟨c, rest, rfl⟩ := List.exists_cons_of_ne_nil nonempty
  obtain ⟨noSpace, found⟩ := readToken?_of_readNumber? read
  exact word noSpace found further

theorem quoted (units : Text.Units) (further : Lexes text tokens) :
    Lexes (writeText units ++ text) (.str units :: tokens) := by
  have read : readToken? '"' ((units.flatMap writeUnit ++ ['"']) ++ text) = some (.str units, text) := by
    rw [List.append_assoc]
    exact readText?_units units text
  exact word (by decide) read further

end Lexes

/-! ## Written values -/

theorem ends_cons {c : Char} (mark : c = ',' ∨ c = '\n') (text : Text) : Ends (c :: text) := by
  rintro _ ⟨⟩
  rcases mark with rfl | rfl <;> decide

/-- The words of a value are read wherever the value is written, if no number goes on behind it. -/
def ReadsBack (value : Json) : Prop :=
  ∀ (depth : Nat) {rest : Text} {tokens : List Token}, Ends rest → Lexes rest tokens →
    Lexes (writeAt depth value ++ rest) (value.tokens ++ tokens)

section
variable {rest : Text} (depth : Nat) (ends : Ends rest)
include ends

theorem ends_writeItems (items : List Json) : Ends (writeItems depth items ++ rest) := by
  cases items with
  | nil => exact ends
  | cons item items => exact ends_cons (by decide) _

theorem ends_writeFields (fields : List (Text.Units × Json)) : Ends (writeFields depth fields ++ rest) := by
  cases fields with
  | nil => exact ends
  | cons field fields => exact ends_cons (by decide) _

variable {tokens : List Token} (further : Lexes rest tokens)
include further

theorem lexes_writeItems {items : List Json} (each : ∀ item ∈ items, ReadsBack item) :
    Lexes (writeItems depth items ++ rest) (itemTokens items ++ tokens) := by
  induction items with
  | nil => exact further
  | cons item items ih =>
    have later := ih fun other member => each other (List.mem_cons_of_mem item member)
    have first := each item List.mem_cons_self depth (ends_writeItems depth ends items) later
    simp only [writeItems, itemTokens, List.cons_append, List.append_assoc]
    exact .mark (by decide) (by decide) (first.lineStart depth)

theorem lexes_writeFields {fields : List (Text.Units × Json)} (each : ∀ field ∈ fields, ReadsBack field.2) :
    Lexes (writeFields depth fields ++ rest) (fieldTokens fields ++ tokens) := by
  induction fields with
  | nil => exact further
  | cons field fields ih =>
    obtain ⟨key, value⟩ := field
    have later := ih fun other member => each other (List.mem_cons_of_mem _ member)
    have first := each (key, value) List.mem_cons_self depth (ends_writeFields depth ends fields) later
    simp only [writeFields, fieldTokens, List.cons_append, List.append_assoc]
    exact .mark (by decide) (by decide)
      (.lineStart depth (.quoted key (.mark (by decide) (by decide) (.space (by decide) first))))

end

/-- A storable value is written with its words. -/
theorem Storable.readsBack {value : Json} (storable : Storable value) : ReadsBack value := by
  induction storable with
  | null => exact fun _ _ _ _ further => .letters "ull".toList (by decide) (fun _ => rfl) further
  | bool value =>
    intro _ _ _ _ further
    cases value with
    | true => exact .letters "rue".toList (by decide) (fun _ => rfl) further
    | false => exact .letters "alse".toList (by decide) (fun _ => rfl) further
  | @int value short =>
    intro _ _ _ ends further
    exact .number (print_ne_nil value) (readNumber?_print short ends) further
  | real fits =>
    intro _ _ _ ends further
    cases fits with
    | nan => exact .letters "aN".toList (by decide) (fun _ => rfl) further
    | infinite negative =>
      cases negative with
      | false => exact .letters "nfinity".toList (by decide) (fun _ => rfl) further
      | true => exact .letters "Infinity".toList (by decide) (fun _ => rfl) further
    | finite negative below precise =>
      have read := readNumber?_writeReal (.finite negative below precise) ends
      exact .number (writeReal_ne_nil (.finite negative below precise)) read further
  | str units => exact fun _ _ _ _ further => .quoted units further
  | @arr items _ ih =>
    intro depth rest tokens _ further
    cases items with
    | nil => exact .mark (by decide) (by decide) (.mark (by decide) (by decide) further)
    | cons item items =>
      have close : Lexes (lineStart depth ++ ']' :: rest) (.rightBracket :: tokens) :=
        .lineStart depth (.mark (by decide) (by decide) further)
      have ends : Ends (lineStart depth ++ ']' :: rest) := ends_cons (by decide) _
      have later :=
        lexes_writeItems (depth + 1) ends close fun other member => ih other (List.mem_cons_of_mem item member)
      have first := ih item List.mem_cons_self (depth + 1) (ends_writeItems (depth + 1) ends items) later
      simp only [writeAt, Json.tokens, List.cons_append, List.append_assoc, List.nil_append]
      exact .mark (by decide) (by decide) (.lineStart _ first)
  | @obj fields _ _ ih =>
    intro depth rest tokens _ further
    cases fields with
    | nil => exact .mark (by decide) (by decide) (.mark (by decide) (by decide) further)
    | cons field fields =>
      obtain ⟨key, value⟩ := field
      have close : Lexes (lineStart depth ++ '\x7d' :: rest) (.rightBrace :: tokens) :=
        .lineStart depth (.mark (by decide) (by decide) further)
      have ends : Ends (lineStart depth ++ '\x7d' :: rest) := ends_cons (by decide) _
      have later :=
        lexes_writeFields (depth + 1) ends close fun other member => ih other (List.mem_cons_of_mem _ member)
      have first := ih (key, value) List.mem_cons_self (depth + 1) (ends_writeFields (depth + 1) ends fields) later
      simp only [writeAt, Json.tokens, List.cons_append, List.append_assoc, List.nil_append]
      exact .mark (by decide) (by decide)
        (.lineStart _ (.quoted key (.mark (by decide) (by decide) (.space (by decide) first))))

theorem Storable.readTokens_write {value : Json} (storable : Storable value) :
    readTokens (write value).length (write value) = some value.tokens := by
  have ends : Ends [] := by rintro _ ⟨⟩
  have lexes := storable.readsBack 0 ends .nil
  rw [List.append_nil, List.append_nil] at lexes
  exact lexes.readTokens lexes.length_le

/-! ## Reading the words of a value -/

/-- A value begins with no closing bracket, and a text that it begins with is all of it. -/
theorem tokens_start (value : Json) :
    ∃ first more, value.tokens = first :: more ∧ first ≠ .rightBracket ∧ ∀ key, first = .str key → more = [] := by
  cases value with
  | null | bool | int | real | str => exact ⟨_, _, rfl, by simp, fun _ _ => rfl⟩
  | arr items => cases items <;> exact ⟨_, _, rfl, by simp, by simp⟩
  | obj fields => cases fields <;> exact ⟨_, _, rfl, by simp, by simp⟩

theorem putField_new {key : Text.Units} (value : Json) {fields : List (Text.Units × Json)}
    (new : key ∉ fields.map Prod.fst) : putField key value fields = fields ++ [(key, value)] := by
  induction fields with
  | nil => rfl
  | cons field fields ih =>
    obtain ⟨other, old⟩ := field
    obtain ⟨differs, later⟩ := List.ne_and_not_mem_of_not_mem_cons new
    rw [putField, if_neg (Ne.symm differs), ih later, List.cons_append]

theorem new_of_nodup {before fields : List (Text.Units × Json)} {key : Text.Units} {value : Json}
    (once : ((before ++ (key, value) :: fields).map Prod.fst).Nodup) : key ∉ before.map Prod.fst := by
  rw [List.map_append, List.nodup_append] at once
  intro member
  exact once.2.2 key member key List.mem_cons_self rfl

theorem readValue_item (stack : List Frame) (item : Json) (rest : List Token) :
    readValue stack (.leftBracket :: (item.tokens ++ rest)) = readValue (.array [] :: stack) (item.tokens ++ rest) := by
  obtain ⟨first, more, start, noClose, -⟩ := tokens_start item
  rw [start, List.cons_append, readValue]
  rintro _ ⟨⟩
  exact noClose rfl

theorem settle_item (stack : List Frame) (before : List Json) (value item : Json) {rest : List Token}
    (noColon : rest.head? ≠ some .colon) :
    settle (.array before :: stack) value (.comma :: (item.tokens ++ rest)) =
      readValue (.array (value :: before) :: stack) (item.tokens ++ rest) := by
  obtain ⟨first, more, start, -, text⟩ := tokens_start item
  rw [start, List.cons_append, settle]
  -- A text with a colon behind it would be taken for the key of the next field.
  intro key behind same
  injection same with isText isColon
  obtain rfl := text key isText
  rw [List.nil_append] at isColon
  exact noColon (by rw [isColon]; rfl)

/-- The words of a value are read as the value, whatever is open around it. -/
def ReadsAs (value : Json) : Prop :=
  ∀ (stack : List Frame) (rest : List Token), readValue stack (value.tokens ++ rest) = settle stack value rest

theorem settle_items (stack : List Frame) {items : List Json} (each : ∀ item ∈ items, ReadsAs item)
    (before : List Json) (value : Json) (rest : List Token) :
    settle (.array before :: stack) value (itemTokens items ++ .rightBracket :: rest) =
      settle stack (arr (before.reverse ++ value :: items)) rest := by
  induction items generalizing before value with
  | nil => rw [itemTokens, List.nil_append, settle, List.reverse_cons]
  | cons item items ih =>
    have noColon : (itemTokens items ++ .rightBracket :: rest).head? ≠ some .colon := by
      cases items <;> simp [itemTokens]
    rw [itemTokens, List.cons_append, List.append_assoc, settle_item stack before value item noColon,
      each item List.mem_cons_self, ih (fun other member => each other (List.mem_cons_of_mem item member)),
      List.reverse_cons, List.append_assoc, List.singleton_append]

theorem settle_fields (stack : List Frame) {fields : List (Text.Units × Json)}
    (each : ∀ field ∈ fields, ReadsAs field.2) (before : List (Text.Units × Json)) (key : Text.Units) (value : Json)
    (rest : List Token) (once : ((before ++ (key, value) :: fields).map Prod.fst).Nodup) :
    settle (.field before key :: stack) value (fieldTokens fields ++ .rightBrace :: rest) =
      settle stack (obj (before ++ (key, value) :: fields)) rest := by
  induction fields generalizing before key value with
  | nil => rw [fieldTokens, List.nil_append, settle, putField_new value (new_of_nodup once)]
  | cons field fields ih =>
    obtain ⟨next, item⟩ := field
    have shifted : before ++ [(key, value)] ++ (next, item) :: fields = before ++ (key, value) :: (next, item) :: fields :=
      List.append_assoc _ _ _
    rw [fieldTokens, List.cons_append, List.cons_append, List.cons_append, List.append_assoc, settle,
      each (next, item) List.mem_cons_self, putField_new value (new_of_nodup once),
      ih (fun other member => each other (List.mem_cons_of_mem _ member)) _ _ _ (by rwa [shifted]), shifted]

/-- The words of a storable value are read as the value. -/
theorem Storable.readsAs {value : Json} (storable : Storable value) : ReadsAs value := by
  induction storable with
  | null | bool | int | real | str => exact fun _ _ => by rw [tokens, List.singleton_append, readValue]
  | @arr items _ ih =>
    intro stack rest
    cases items with
    | nil => rw [tokens, List.cons_append, List.singleton_append, readValue]
    | cons item items =>
      rw [tokens, List.cons_append, List.append_assoc, List.append_assoc, List.singleton_append, readValue_item,
        ih item List.mem_cons_self, settle_items stack fun other member => ih other (List.mem_cons_of_mem _ member)]
      rfl
  | @obj fields once _ ih =>
    intro stack rest
    cases fields with
    | nil => rw [tokens, List.cons_append, List.singleton_append, readValue]
    | cons field fields =>
      obtain ⟨key, value⟩ := field
      rw [tokens, List.cons_append, List.cons_append, List.cons_append, List.append_assoc, List.append_assoc,
        List.singleton_append, readValue, ih (key, value) List.mem_cons_self,
        settle_fields stack (fun other member => ih other (List.mem_cons_of_mem _ member)) [] key value rest once]
      rfl

theorem Storable.read?_write {value : Json} (storable : Storable value) : read? (write value) = some value := by
  have read := storable.readsAs [] []
  rw [List.append_nil] at read
  rw [read?, storable.readTokens_write, Option.bind_some, read, settle]
  rfl

end LineCalc.Json
