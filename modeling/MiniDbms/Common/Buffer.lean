import MiniDbms.Common.Utils
import MiniDbms.Library.GrowBuffer

/-!
# The memory of `utils_append_buffer`

`utilsAppendBuffer` is what `utils_append_buffer` does to the text in the buffer. Here are the block
of memory and its capacity; what fresh memory holds is the parameter `fresh`.
-/

namespace MiniDbms

/-- `utils_append_buffer` on the block, `none` being the `NULL` buffer. -/
def utilsAppendBufferBlock (fresh : Nat → Byte) (buffer : Option (GrowBuffer Byte))
    (suffix : CString) : GrowBuffer Byte :=
  let block := buffer.getD ⟨0 :: (List.range' 1 (suffix.length + 63)).map fresh, 0⟩
  block.append 0 fresh suffix

/-- The text in a buffer. -/
def bufferText (buffer : Option (GrowBuffer Byte)) : CString :=
  buffer.elim [] GrowBuffer.contents

/-- Whatever fresh memory holds, the block holds the text that is appended to. -/
lemma utilsAppendBufferBlock_text {buffer : Option (GrowBuffer Byte)}
    (h : ∀ block ∈ buffer, block.Terminated 0) (fresh : Nat → Byte) (suffix : CString) :
    (utilsAppendBufferBlock fresh buffer suffix).Terminated 0 ∧
      (utilsAppendBufferBlock fresh buffer suffix).contents =
        utilsAppendBuffer (bufferText buffer) suffix := by
  cases buffer with
  | none => exact GrowBuffer.append_spec ⟨rfl⟩ fresh suffix
  | some block => exact GrowBuffer.append_spec (h block rfl) fresh suffix

/-- The text after a run of appends to the `NULL` buffer. -/
lemma utilsAppendBufferBlock_run (fresh : Nat → Byte) (suffixes : List CString) :
    bufferText (suffixes.foldl (fun buffer suffix =>
      some (utilsAppendBufferBlock fresh buffer suffix)) none) =
        suffixes.foldl utilsAppendBuffer [] := by
  have hrun : ∀ buffer : Option (GrowBuffer Byte), (∀ block ∈ buffer, block.Terminated 0) →
      bufferText (suffixes.foldl (fun buffer suffix =>
        some (utilsAppendBufferBlock fresh buffer suffix)) buffer) =
          suffixes.foldl utilsAppendBuffer (bufferText buffer) := by
    induction suffixes with
    | nil => exact fun _ _ => rfl
    | cons suffix suffixes ih =>
      intro buffer hbuffer
      obtain ⟨hterminated, htext⟩ := utilsAppendBufferBlock_text hbuffer fresh suffix
      rw [List.foldl_cons, List.foldl_cons, ih _ (by simpa using hterminated), ← htext]
      rfl
  exact hrun none (by simp)

end MiniDbms
