namespace Prefilter.Text

/-- The bytes by which names, terms and fields are ordered and as which they travel. -/
def utf8 (s : String) : List UInt8 := s.toByteArray.data.toList

def ofUtf8? (bytes : List UInt8) : Option String := String.fromUTF8? ⟨bytes.toArray⟩

/-- Texts are ordered by their UTF-8 bytes. -/
def compareUtf8 (a b : String) : Ordering :=
  if a = b then .eq else compare (utf8 a) (utf8 b)

end Prefilter.Text
