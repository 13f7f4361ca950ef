import LineCalc.Preferences
import LineCalc.Proofs.Soundness

/-!
Preferences with any history. A store knows no more than where its file is, so what is answered
depends on the file alone (`Preferences.accessAll`). Whatever stands in a file at first, what it
holds are storable values (`Preferences.storable_usable`), and storing one more of them keeps the
others (`Preferences.put_writes`).
-/
namespace LineCalc.Preferences
open Json (Storable)

/-- A use of a store of a file: a value is stored under a key, or the value of a key is asked for. -/
inductive Access
  | put (key : Text.Units) (value : Json)
  | get (key : Text.Units) (default : Json)

def Access.isPut : Access → Bool
  | put _ _ => true
  | get _ _ => false

/-- The file behind a use, and the value if one was asked for. -/
def access (file : FileState) : Access → Except Refusal (FileState × Option Json)
  | .put key value => (put file key value).map fun after => (after, none)
  | .get key default => .ok (file, some (get file key default))

/-- The file behind uses, and the answers to them in order, if none of them is refused. -/
def accessAll (file : FileState) : List Access → Except Refusal (FileState × List (Option Json))
  | [] => .ok (file, [])
  | first :: rest => do
    let (after, answer) ← access file first
    let (last, answers) ← accessAll after rest
    return (last, answer :: answers)

/-- The last of the uses that store a value under the key stores this one. -/
def LastPut (uses : List Access) (key : Text.Units) (value : Json) : Prop :=
  ∃ before after, uses = before ++ .put key value :: after ∧ ∀ other, .put key other ∉ after

/-- A file is the text of an object that has the value under the key. -/
def Holds (file : FileState) (key : Text.Units) (value : Json) : Prop :=
  ∃ text fields, file = .bytes (Text.encodeUtf8 text) ∧ Json.read? text = some (.obj fields) ∧
    Json.field? key fields = some value

/-- The value that was stored last, or the one that the file held if none was stored, or the default
    if it held none. -/
structure Answers (file : FileState) (uses : List Access) (key : Text.Units) (default answer : Json) : Prop where
  stored : ∀ value, LastPut uses key value → answer = value
  held : (∀ other, .put key other ∉ uses) → ∀ value, Holds file key value → answer = value
  missing : (∀ other, .put key other ∉ uses) → (∀ value, ¬ Holds file key value) → answer = default

/-! ## What a file holds -/

theorem load_text {text : Text} {fields : List (Text.Units × Json)} (read : Json.read? text = some (.obj fields)) :
    load (.bytes (Text.encodeUtf8 text)) = .ok fields := by
  rw [load, Text.decodeUtf8?_encodeUtf8]
  simp only [fieldsOf, read]

theorem usable_load (file : FileState) :
    usable (load file) = [] ∨ ∃ text, file = .bytes (Text.encodeUtf8 text) ∧
      Json.read? text = some (.obj (usable (load file))) := by
  cases file with
  | absent | directory => exact Or.inl rfl
  | bytes content =>
    cases decoded : Text.decodeUtf8? content with
    | none => simp [load, decoded, usable]
    | some text =>
      obtain rfl := Text.decodeUtf8?_eq_some_iff.mp decoded
      cases read : Json.read? text with
      | none => simp [load, decoded, fieldsOf, read, usable]
      | some value =>
        cases value with
        | obj fields =>
          rw [load_text read]
          exact Or.inr ⟨text, rfl, read⟩
        | null | bool | int | real | str | arr => simp [load, decoded, fieldsOf, read, usable]

theorem holds_iff {file : FileState} {key : Text.Units} {value : Json} :
    Holds file key value ↔ Json.field? key (usable (load file)) = some value := by
  constructor
  · rintro ⟨text, fields, rfl, read, found⟩
    rw [load_text read]
    exact found
  · intro found
    rcases usable_load file with nothing | ⟨text, written, read⟩
    · rw [nothing] at found
      cases found
    · exact ⟨text, _, written, read, found⟩

/-- What is found in a file is storable, whatever the file is. -/
theorem storable_usable (file : FileState) : Storable (.obj (usable (load file))) := by
  rcases usable_load file with nothing | ⟨text, -, read⟩
  · rw [nothing]
    exact .obj List.nodup_nil (List.forall_mem_nil _)
  · exact Json.storable_of_read? read

/-! ## One use -/

/-- Storing a value is not refused, and adds it to what the file holds. -/
theorem put_writes {file : FileState} (writable : file ≠ .directory) (key : Text.Units) {value : Json}
    (storable : Storable value) :
    ∃ after, put file key value = .ok after ∧ after ≠ .directory ∧
      usable (load after) = Json.putField key value (usable (load file)) := by
  have fields : Storable (.obj (Json.putField key value (usable (load file)))) := by
    cases storable_usable file with
    | obj once each =>
      have sound : (Json.Frame.field (usable (load file)) key).Sound := ⟨once, each⟩
      obtain ⟨stillOnce, stillEach⟩ := sound.putField storable
      exact .obj stillOnce stillEach
  refine ⟨.bytes (Text.encodeUtf8 (textOf (Json.putField key value (usable (load file))))), ?_, nofun, ?_⟩
  · cases file with
    | directory => exact absurd rfl writable
    | absent | bytes => rfl
  · rw [textOf, load_text fields.read?_write, usable]

/-- The last value that is stored is among the later ones, or it is the first and only one. -/
theorem lastPut_cons_iff {first : Access} {rest : List Access} {key : Text.Units} {value : Json} :
    LastPut (first :: rest) key value ↔
      LastPut rest key value ∨ first = .put key value ∧ ∀ other, .put key other ∉ rest := by
  constructor
  · rintro ⟨before, after, cut, later⟩
    cases before with
    | nil =>
      obtain ⟨rfl, rfl⟩ := List.cons.inj cut
      exact .inr ⟨rfl, later⟩
    | cons head before =>
      obtain ⟨rfl, rfl⟩ := List.cons.inj cut
      exact .inl ⟨before, after, rfl, later⟩
  · rintro (⟨before, after, rfl, later⟩ | ⟨rfl, later⟩)
    · exact ⟨first :: before, after, rfl, later⟩
    · exact ⟨[], rest, rfl, later⟩

theorem answers_get (file : FileState) (key : Text.Units) (default : Json) :
    Answers file [] key default (get file key default) where
  stored := by
    rintro value ⟨before, after, cut, -⟩
    cases before <;> cases cut
  held _ value holds := by rw [get, holds_iff.mp holds, Option.getD_some]
  missing _ missing := by
    have none : Json.field? key (usable (load file)) = none :=
      Option.eq_none_iff_forall_ne_some.mpr fun value found => missing value (holds_iff.mpr found)
    rw [get, none, Option.getD_none]

namespace Answers
variable {file : FileState} {uses : List Access} {key : Text.Units} {default answer : Json}

theorem after_get (answers : Answers file uses key default answer) (other : Text.Units) (otherDefault : Json) :
    Answers file (.get other otherDefault :: uses) key default answer where
  stored value last := by
    rcases lastPut_cons_iff.mp last with later | ⟨same, -⟩
    · exact answers.stored value later
    · cases same
  held never := answers.held fun value member => never value (List.mem_cons_of_mem _ member)
  missing never := answers.missing fun value member => never value (List.mem_cons_of_mem _ member)

theorem after_put {after : FileState} {other : Text.Units} {stored : Json}
    (written : usable (load after) = Json.putField other stored (usable (load file)))
    (answers : Answers after uses key default answer) :
    Answers file (.put other stored :: uses) key default answer := by
  have kept (differs : key ≠ other) (value : Json) : Holds after key value ↔ Holds file key value := by
    rw [holds_iff, holds_iff, written, Json.field?_putField_other stored _ differs]
  have apart (never : ∀ value, .put key value ∉ Access.put other stored :: uses) :
      key ≠ other ∧ ∀ value, .put key value ∉ uses :=
    ⟨fun same => never stored (same ▸ List.mem_cons_self),
      fun value member => never value (List.mem_cons_of_mem _ member)⟩
  refine ⟨fun value last => ?_, fun never value holds => ?_, fun never missing => ?_⟩
  · rcases lastPut_cons_iff.mp last with later | ⟨same, never⟩
    · exact answers.stored value later
    · cases same
      exact answers.held never _ (holds_iff.mpr (by rw [written, Json.field?_putField_self]))
  · obtain ⟨differs, never⟩ := apart never
    exact answers.held never value ((kept differs value).mpr holds)
  · obtain ⟨differs, never⟩ := apart never
    exact answers.missing never fun value holds => missing value ((kept differs value).mp holds)

end Answers

/-! ## Any history -/

theorem accessAll_cons {file after last : FileState} {first : Access} {rest : List Access} {answer : Option Json}
    {answers : List (Option Json)} (used : access file first = .ok (after, answer))
    (further : accessAll after rest = .ok (last, answers)) :
    accessAll file (first :: rest) = .ok (last, answer :: answers) := by
  rw [accessAll, used]
  simp only [bind, Except.bind, further]
  rfl

/-- A store of a file is a map that persists. If the values that are stored are storable, no use of
    a file is refused, whatever the file is at first, and a value that is asked for is the last that
    was stored under the key, or the one that the file held at first, or the default. Only the uses
    that store a value change the file. -/
theorem accessAll_persists {file : FileState} (writable : file ≠ .directory) {uses : List Access}
    (storable : ∀ key value, .put key value ∈ uses → Storable value) :
    ∃ last answers, accessAll file uses = .ok (last, answers) ∧ answers.length = uses.length ∧
      (∀ before key default after, uses = before ++ .get key default :: after →
        ∃ answer, answers[before.length]? = some (some answer) ∧ Answers file before key default answer) ∧
      ∃ unasked, accessAll file (uses.filter Access.isPut) = .ok (last, unasked) := by
  -- From the first use on: the file behind it is the one that the later uses find at first.
  induction uses generalizing file with
  | nil => exact ⟨file, [], rfl, rfl, by simp, [], rfl⟩
  | cons first rest ih =>
    have later key value (member : .put key value ∈ rest) := storable key value (List.mem_cons_of_mem first member)
    cases first with
    | put key value =>
      obtain ⟨after, put, writable, written⟩ := put_writes writable key (storable key value List.mem_cons_self)
      have used : access file (.put key value) = .ok (after, none) := by rw [access, put, Except.map]
      obtain ⟨last, answers, run, size, right, unasked, puts⟩ := ih writable later
      refine ⟨last, none :: answers, accessAll_cons used run, congrArg Nat.succ size, ?_, none :: unasked,
        accessAll_cons used puts⟩
      intro before other default behind cut
      cases before with
      | nil => cases cut
      | cons head before =>
        cases cut
        obtain ⟨answer, found, answered⟩ := right before other default behind rfl
        exact ⟨answer, found, answered.after_put written⟩
    | get key default =>
      have used : access file (.get key default) = .ok (file, some (get file key default)) := rfl
      obtain ⟨last, answers, run, size, right, unasked, puts⟩ := ih writable later
      refine ⟨last, some (get file key default) :: answers, accessAll_cons used run, congrArg Nat.succ size, ?_, unasked,
        puts⟩
      intro before other otherDefault behind cut
      cases before with
      | nil =>
        cases cut
        exact ⟨_, rfl, answers_get file key default⟩
      | cons head before =>
        cases cut
        obtain ⟨answer, found, answered⟩ := right before other otherDefault behind rfl
        exact ⟨answer, found, answered.after_get key default⟩

theorem accessAll_persists_beside :
    ∃ last answers, accessAll (.bytes (Text.encodeUtf8 "\x7b\"c\": true\x7d".toList))
        [.put [97] (.int 1), .put [97] (.str [98]), .get [97] .null, .get [99] .null] = .ok (last, answers) ∧
      answers[2]? = some (some (.str [98])) ∧ answers[3]? = some (some (.bool true)) := by
  have storable : ∀ key value, Access.put key value ∈
      [.put [97] (.int 1), .put [97] (.str [98]), .get [97] .null, .get [99] .null] → Storable value := by
    intro key value member
    simp only [List.mem_cons, List.not_mem_nil, Access.put.injEq, reduceCtorEq, or_false] at member
    rcases member with ⟨-, rfl⟩ | ⟨-, rfl⟩
    · exact .int (by decide)
    · exact .str [98]
  have writable : FileState.bytes (Text.encodeUtf8 "\x7b\"c\": true\x7d".toList) ≠ .directory := nofun
  obtain ⟨last, answers, run, -, right, -⟩ := accessAll_persists writable storable
  refine ⟨last, answers, run, ?_, ?_⟩
  · obtain ⟨answer, found, answered⟩ := right [.put [97] (.int 1), .put [97] (.str [98])] [97] .null _ rfl
    rw [← answered.stored (.str [98]) ⟨[.put [97] (.int 1)], [], rfl, fun _ => List.not_mem_nil⟩]
    exact found
  · obtain ⟨answer, found, answered⟩ :=
      right [.put [97] (.int 1), .put [97] (.str [98]), .get [97] .null] [99] .null _ rfl
    rw [← answered.held (by simp) (.bool true) ⟨_, [([99], .bool true)], rfl, rfl, rfl⟩]
    exact found

end LineCalc.Preferences
