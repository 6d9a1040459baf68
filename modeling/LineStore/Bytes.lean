/-!
Strings of bytes and the text they spell. Main statement: bytes are read as a text exactly when
they are the bytes of that text (`text?_eq_some_iff`), so no two texts share their bytes.
-/
namespace LineStore

abbrev Bytes := List UInt8

namespace Bytes

def ofText (text : String) : Bytes := text.toUTF8.data.toList

/-- The text that some bytes spell, if they spell one. -/
def text? (bytes : Bytes) : Option String := String.fromUTF8? ⟨bytes.toArray⟩

theorem text?_ofText (text : String) : text? (ofText text) = some text := by
  have bytes : (⟨(ofText text).toArray⟩ : ByteArray) = text.toUTF8 := by simp [ofText]
  rw [text?, bytes, String.fromUTF8?, String.toUTF8_eq_toByteArray, dif_pos text.isValidUTF8]
  rfl

/-- Bytes are read as the one text whose bytes they are. -/
theorem text?_eq_some_iff {bytes : Bytes} {text : String} : text? bytes = some text ↔ bytes = ofText text := by
  constructor
  · intro read
    simp only [text?, String.fromUTF8?] at read
    split at read
    · obtain rfl := Option.some.inj read
      simp [ofText, String.fromUTF8]
    · simp at read
  · rintro rfl
    exact text?_ofText text

end Bytes
end LineStore
