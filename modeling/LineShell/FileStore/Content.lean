import LineShell.Text.Blank

/-!
# Contents of files

A file may be long and is read and appended to in small pieces, so its content is a byte array and
not a list.  `Content.bytes` is its view as a list.  Every operation has one lemma that says what
it does to that view (`bytes_append`, `bytes_overwrite`) or takes from it (`slice_eq`).
-/

namespace LineShell

structure Content where
  array : ByteArray

namespace Content

def empty : Content := ⟨.empty⟩

def ofBytes (bytes : Bytes) : Content := ⟨bytes.toByteArray⟩

def bytes (content : Content) : Bytes := content.array.data.toList

def size (content : Content) : Nat := content.array.size

/-- At most `count` bytes behind the first `offset` ones. -/
def slice (content : Content) (offset count : Nat) : Bytes :=
  (content.array.extract offset (offset + count)).data.toList

/-- The content after a write at its end. -/
def append (content : Content) (data : Bytes) : Content :=
  ⟨content.array ++ data.toByteArray⟩

/-- The content after a write at an offset.  A gap behind the old end is filled with zeros. -/
def overwrite (content : Content) (offset : Nat) (data : Bytes) : Content :=
  ⟨content.array.extract 0 offset ++
    (List.replicate (offset - content.size) 0 ++ data).toByteArray ++
    content.array.extract (offset + data.length) content.size⟩

instance : Repr Content := ⟨fun content => reprPrec content.bytes⟩

theorem bytes_inj {a b : Content} : a.bytes = b.bytes ↔ a = b := by
  refine ⟨fun h => ?_, congrArg bytes⟩
  obtain ⟨a⟩ := a
  obtain ⟨b⟩ := b
  exact congrArg Content.mk (ByteArray.ext (Array.toList_inj.1 h))

instance : DecidableEq Content := fun _ _ => decidable_of_iff _ bytes_inj

@[simp]
theorem length_bytes (content : Content) : content.bytes.length = content.size := by
  simp [bytes, size]

@[simp]
theorem bytes_append (content : Content) (data : Bytes) :
    (content.append data).bytes = content.bytes ++ data := by
  simp [bytes, append]

theorem slice_eq (content : Content) (offset count : Nat) :
    content.slice offset count = (content.bytes.drop offset).take count := by
  simp [slice, bytes, List.extract_eq_take_drop]

theorem bytes_overwrite (content : Content) (offset : Nat) (data : Bytes) :
    (content.overwrite offset data).bytes =
      content.bytes.take offset ++ List.replicate (offset - content.size) 0 ++ data ++
        content.bytes.drop (offset + data.length) := by
  have hrest : content.bytes.drop (offset + data.length) =
      (content.bytes.drop (offset + data.length)).take
        (content.size - (offset + data.length)) :=
    (List.take_of_length_le (by simp)).symm
  rw [hrest]
  simp [overwrite, bytes, size, List.extract_eq_take_drop]

/-- A write at the end is an appending one. -/
theorem overwrite_size (content : Content) (data : Bytes) :
    content.overwrite content.size data = content.append data := by
  rw [← bytes_inj, bytes_overwrite, bytes_append]
  simp [← length_bytes]

end Content

end LineShell
