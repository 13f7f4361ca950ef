import LineCalc.Text

/-!
Texts as units of sixteen bits. In a list of units half of a pair may stand alone, so that it is
no text; a text comes back from its units (`Text.ofUnits?_units`).
-/
namespace LineCalc.Text

abbrev Units := List UInt16

/-- The first half of a pair. -/
def isHighHalf (unit : UInt16) : Bool := 0xd800 ≤ unit.toNat && unit.toNat < 0xdc00

/-- The second half of a pair. -/
def isLowHalf (unit : UInt16) : Bool := 0xdc00 ≤ unit.toNat && unit.toNat < 0xe000

def unitsOf (c : Char) : Units :=
  if c.toNat < 0x10000 then [c.toNat.toUInt16]
  else
    let offset := c.toNat - 0x10000
    [(0xd800 + offset / 0x400).toUInt16, (0xdc00 + offset % 0x400).toUInt16]

def units (text : Text) : Units := text.flatMap unitsOf

def ofHalves (high low : UInt16) : Char :=
  Char.ofNat ((high.toNat - 0xd800) * 0x400 + (low.toNat - 0xdc00) + 0x10000)

def ofUnits? : Units → Option Text
  | [] => some []
  | unit :: rest =>
    if isLowHalf unit then none
    else if isHighHalf unit then
      match rest with
      | [] => none
      | low :: rest => if isLowHalf low then (ofUnits? rest).map (ofHalves unit low :: ·) else none
    else (ofUnits? rest).map (Char.ofNat unit.toNat :: ·)

theorem toNat_outside_halves (c : Char) : c.toNat < 0xd800 ∨ 0xe000 ≤ c.toNat ∧ c.toNat < 0x110000 := by
  have valid := c.valid
  have same : c.val.toNat = c.toNat := rfl
  simp only [UInt32.isValidChar, Nat.isValidChar, same] at valid
  omega

theorem toNat_toUInt16 {n : Nat} (small : n < 0x10000) : n.toUInt16.toNat = n := by
  rw [Nat.toUInt16_eq, UInt16.toNat_ofNat', Nat.mod_eq_of_lt small]

theorem ofUnits?_single {unit : UInt16} {rest : Units} (notLow : isLowHalf unit = false)
    (notHigh : isHighHalf unit = false) :
    ofUnits? (unit :: rest) = (ofUnits? rest).map (Char.ofNat unit.toNat :: ·) := by
  cases rest <;> simp [ofUnits?, notLow, notHigh]

theorem ofUnits?_pair {high low : UInt16} {rest : Units} (isHigh : isHighHalf high = true)
    (isLow : isLowHalf low = true) :
    ofUnits? (high :: low :: rest) = (ofUnits? rest).map (ofHalves high low :: ·) := by
  have notLow : isLowHalf high = false := by
    simp only [isHighHalf, Bool.and_eq_true, decide_eq_true_eq] at isHigh
    simp only [isLowHalf, Bool.and_eq_false_iff, decide_eq_false_iff_not]
    omega
  simp [ofUnits?, notLow, isHigh, isLow]

theorem ofUnits?_unitsOf_append (c : Char) (rest : Units) :
    ofUnits? (unitsOf c ++ rest) = (ofUnits? rest).map (c :: ·) := by
  have bounds := toNat_outside_halves c
  unfold unitsOf
  split
  next small =>
    have value := toNat_toUInt16 small
    have notLow : isLowHalf c.toNat.toUInt16 = false := by
      simp only [isLowHalf, value, Bool.and_eq_false_iff, decide_eq_false_iff_not]
      omega
    have notHigh : isHighHalf c.toNat.toUInt16 = false := by
      simp only [isHighHalf, value, Bool.and_eq_false_iff, decide_eq_false_iff_not]
      omega
    rw [List.singleton_append, ofUnits?_single notLow notHigh, value, Char.ofNat_toNat]
  next large =>
    have highValue : (0xd800 + (c.toNat - 0x10000) / 0x400).toUInt16.toNat = 0xd800 + (c.toNat - 0x10000) / 0x400 :=
      toNat_toUInt16 (by omega)
    have lowValue : (0xdc00 + (c.toNat - 0x10000) % 0x400).toUInt16.toNat = 0xdc00 + (c.toNat - 0x10000) % 0x400 :=
      toNat_toUInt16 (by omega)
    have isHigh : isHighHalf (0xd800 + (c.toNat - 0x10000) / 0x400).toUInt16 = true := by
      simp only [isHighHalf, highValue, Bool.and_eq_true, decide_eq_true_eq]
      omega
    have isLow : isLowHalf (0xdc00 + (c.toNat - 0x10000) % 0x400).toUInt16 = true := by
      simp only [isLowHalf, lowValue, Bool.and_eq_true, decide_eq_true_eq]
      omega
    have joined : ofHalves (0xd800 + (c.toNat - 0x10000) / 0x400).toUInt16
        (0xdc00 + (c.toNat - 0x10000) % 0x400).toUInt16 = c := by
      have sum : (0xd800 + (c.toNat - 0x10000) / 0x400 - 0xd800) * 0x400 +
          (0xdc00 + (c.toNat - 0x10000) % 0x400 - 0xdc00) + 0x10000 = c.toNat := by omega
      rw [ofHalves, highValue, lowValue, sum, Char.ofNat_toNat]
    rw [List.cons_append, List.singleton_append, ofUnits?_pair isHigh isLow, joined]

theorem ofUnits?_units (text : Text) : ofUnits? (units text) = some text := by
  induction text with
  | nil => rfl
  | cons c rest ih =>
    have cut : units (c :: rest) = unitsOf c ++ units rest := rfl
    rw [cut, ofUnits?_unitsOf_append, ih, Option.map_some]

end LineCalc.Text
