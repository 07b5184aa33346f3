import TraceSampling.Word
import TraceSampling.Proofs.Text.Split

/-!
# What is hashed

The bytes of a text determine it, and so do the bytes of two texts around the separator as long as
the first one does not hold the separator itself. Where such pairs differ and their keys agree, it is
the hash that has sent different bytes to one word.
-/

namespace TraceSampling

theorem utf8_injective {cs ds : List Char}
    (h : cs.flatMap String.utf8EncodeChar = ds.flatMap String.utf8EncodeChar) : cs = ds := by
  have hbytes : (String.ofList cs).toByteArray = (String.ofList ds).toByteArray := by
    rw [String.toByteArray_ofList, String.toByteArray_ofList, List.utf8Encode, List.utf8Encode, h]
  exact String.ofList_injective (String.toByteArray_inj.mp hbytes)

namespace Hash

/-- Different bytes with one hash. -/
def Collide (bytes other : List UInt8) : Prop :=
  bytes ≠ other ∧ fnv offsetBasis bytes = fnv offsetBasis other

/-- The bytes of two texts with the separator between them. -/
def separated (first second : String) : List UInt8 := utf8 first ++ separator :: utf8 second

/-- The character whose only byte is the separator. -/
def separatorChar : Char := '\x1f'

theorem separated_eq (first second : String) :
    separated first second =
      (first.toList ++ separatorChar :: second.toList).flatMap String.utf8EncodeChar := by
  have hbyte : String.utf8EncodeChar separatorChar = [separator] := by decide
  rw [List.flatMap_append, List.flatMap_cons, hbyte]
  rfl

theorem separated_injective {first second first' second' : String}
    (hfirst : separatorChar ∉ first.toList) (hfirst' : separatorChar ∉ first'.toList)
    (h : separated first second = separated first' second') :
    first = first' ∧ second = second' := by
  rw [separated_eq, separated_eq] at h
  have hcut := congrArg (Split.cut? separatorChar) (utf8_injective h)
  rw [Split.cut?_append hfirst, Split.cut?_append hfirst', Option.some_inj, Prod.mk.injEq] at hcut
  exact ⟨String.toList_inj.mp hcut.1, String.toList_inj.mp hcut.2⟩

end Hash

end TraceSampling
