namespace ChatRelay.Text

def octets (s : String) : List UInt8 :=
  s.toByteArray.data.toList

/-- The text that octets spell in UTF-8, if they spell one. -/
def ofOctets? (bs : List UInt8) : Option String :=
  String.fromUTF8? ⟨bs.toArray⟩

@[simp] theorem ofOctets?_octets (s : String) : ofOctets? (octets s) = some s := by
  simp [ofOctets?, octets, String.fromUTF8?, s.isValidUTF8, String.fromUTF8]

theorem octets_of_ofOctets? {bs : List UInt8} {s : String} (h : ofOctets? bs = some s) :
    octets s = bs := by
  unfold ofOctets? String.fromUTF8? at h
  split at h
  · cases h
    simp [octets, String.fromUTF8]
  · contradiction

end ChatRelay.Text
