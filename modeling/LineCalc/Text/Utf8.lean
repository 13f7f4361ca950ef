import LineCalc.Text

/-!
Texts as bytes. Decoding gives back every text that was encoded and no other
(`Text.decodeUtf8?_eq_some_iff`).
-/
namespace LineCalc.Text

def encodeUtf8 (text : Text) : ByteArray := (String.ofList text).toUTF8

def decodeUtf8? (bytes : ByteArray) : Option Text := (String.fromUTF8? bytes).map String.toList

theorem decodeUtf8?_encodeUtf8 (text : Text) : decodeUtf8? (encodeUtf8 text) = some text := by
  have valid : (encodeUtf8 text).IsValidUTF8 := (String.ofList text).isValidUTF8
  simp only [decodeUtf8?, String.fromUTF8?, dif_pos valid, Option.map_some, Option.some.injEq]
  exact String.toList_ofList

theorem decodeUtf8?_eq_some_iff {bytes : ByteArray} {text : Text} :
    decodeUtf8? bytes = some text ↔ bytes = encodeUtf8 text := by
  constructor
  · intro decoded
    rw [decodeUtf8?, String.fromUTF8?] at decoded
    split at decoded
    · cases decoded
      rw [encodeUtf8, String.ofList_toList]
      rfl
    · cases decoded
  · rintro rfl
    exact decodeUtf8?_encodeUtf8 text

end LineCalc.Text
