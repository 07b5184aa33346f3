/-!
# Trees of bytes

A finite number of bytes by their index, all others being zero. A byte hangs at the end of the path
that the binary digits of its index describe, lowest digit first, and whatever is zero is left out.
Paths have one length for the whole tree, its height. Trees in this form are equal as soon as all
their bytes are.
-/

namespace TraceSampling

inductive ByteTree where
  | blank
  | leaf (byte : UInt8)
  | node (even odd : ByteTree)
  deriving DecidableEq, Repr, Inhabited

namespace ByteTree

def byteAt : ByteTree → Nat → UInt8
  | blank, _ => 0
  | leaf byte, j => if j = 0 then byte else 0
  | node even odd, j => if j % 2 = 0 then even.byteAt (j / 2) else odd.byteAt (j / 2)

/-- The trees of the even and of the odd indices. -/
def branches : ByteTree → ByteTree × ByteTree
  | node even odd => (even, odd)
  | _ => (blank, blank)

/-- Adds the bits of a mask to a byte of a tree of some height. -/
def mark : Nat → ByteTree → Nat → UInt8 → ByteTree
  | 0, t, _, mask => leaf (t.byteAt 0 ||| mask)
  | h + 1, t, j, mask =>
    let (even, odd) := t.branches
    if j % 2 = 0 then node (mark h even (j / 2) mask) odd else node even (mark h odd (j / 2) mask)

/-- The form of trees of a height: nothing in them is zero throughout. -/
inductive Proper : Nat → ByteTree → Prop
  | blank {h : Nat} : Proper h blank
  | leaf {byte : UInt8} : byte ≠ 0 → Proper 0 (leaf byte)
  | node {h : Nat} {even odd : ByteTree} :
      Proper h even → Proper h odd → even ≠ .blank ∨ odd ≠ .blank → Proper (h + 1) (node even odd)

/-! ## Marking a byte -/

theorem mark_ne_blank (h : Nat) (t : ByteTree) (j : Nat) (mask : UInt8) :
    mark h t j mask ≠ blank := by
  cases h with
  | zero => simp [mark]
  | succ h =>
    simp only [mark]
    split <;> simp

theorem Proper.branches {h : Nat} {t : ByteTree} (ht : t.Proper (h + 1)) :
    t.branches.1.Proper h ∧ t.branches.2.Proper h := by
  cases ht with
  | blank => exact ⟨.blank, .blank⟩
  | node he ho _ => exact ⟨he, ho⟩

theorem Proper.byteAt_branches {h : Nat} {t : ByteTree} (ht : t.Proper (h + 1)) (j : Nat) :
    t.byteAt j =
      if j % 2 = 0 then t.branches.1.byteAt (j / 2) else t.branches.2.byteAt (j / 2) := by
  cases ht with
  | blank => simp [byteAt, ByteTree.branches]
  | node _ _ _ => rfl

theorem or_ne_zero {a b : UInt8} (hb : b ≠ 0) : a ||| b ≠ 0 := by
  intro h
  apply hb
  simp_all [← UInt8.toNat_inj]

theorem Proper.mark {h : Nat} {t : ByteTree} (ht : t.Proper h) (j : Nat) {mask : UInt8}
    (hm : mask ≠ 0) : (t.mark h j mask).Proper h := by
  induction h generalizing t j with
  | zero => exact .leaf (or_ne_zero hm)
  | succ h ih =>
    have hb := ht.branches
    simp only [ByteTree.mark]
    split
    · exact .node (ih hb.1 _) hb.2 (.inl (mark_ne_blank _ _ _ _))
    · exact .node hb.1 (ih hb.2 _) (.inr (mark_ne_blank _ _ _ _))

theorem Proper.byteAt_mark {h : Nat} {t : ByteTree} (ht : t.Proper h) {j : Nat} (hj : j < 1 <<< h)
    (mask : UInt8) (k : Nat) :
    (t.mark h j mask).byteAt k = if k = j then t.byteAt k ||| mask else t.byteAt k := by
  induction h generalizing t j k with
  | zero =>
    have hj0 : j = 0 := by simpa using hj
    subst hj0
    cases ht <;> by_cases hk : k = 0 <;> simp [ByteTree.mark, byteAt, hk]
  | succ h ih =>
    have hb := ht.branches
    have hhalf : j / 2 < 1 <<< h := by
      rw [Nat.shiftLeft_succ] at hj
      omega
    rw [ht.byteAt_branches k]
    simp only [ByteTree.mark]
    split
    · by_cases hk : k % 2 = 0
      · rw [byteAt, if_pos hk, if_pos hk, ih hb.1 hhalf]
        have : k / 2 = j / 2 ↔ k = j := by omega
        simp only [this]
      · have : k ≠ j := by omega
        rw [byteAt, if_neg hk, if_neg hk, if_neg this]
    · by_cases hk : k % 2 = 0
      · have : k ≠ j := by omega
        rw [byteAt, if_pos hk, if_pos hk, if_neg this]
      · rw [byteAt, if_neg hk, if_neg hk, ih hb.2 hhalf]
        have : k / 2 = j / 2 ↔ k = j := by omega
        simp only [this]

/-! ## One form for the same bytes -/

@[simp] theorem byteAt_node_even (even odd : ByteTree) (j : Nat) :
    (node even odd).byteAt (2 * j) = even.byteAt j := by
  rw [byteAt, if_pos (by omega), Nat.mul_div_cancel_left j (by decide)]

@[simp] theorem byteAt_node_odd (even odd : ByteTree) (j : Nat) :
    (node even odd).byteAt (2 * j + 1) = odd.byteAt j := by
  rw [byteAt, if_neg (by omega), show (2 * j + 1) / 2 = j by omega]

theorem Proper.eq_blank {h : Nat} {t : ByteTree} (ht : t.Proper h) (hz : ∀ j, t.byteAt j = 0) :
    t = .blank := by
  induction ht with
  | blank => rfl
  | leaf hb => exact absurd (hz 0) (by simpa [byteAt] using hb)
  | node _ _ hne ihe iho =>
    have he := ihe fun j => by simpa using hz (2 * j)
    have ho := iho fun j => by simpa using hz (2 * j + 1)
    cases hne with
    | inl h => exact absurd he h
    | inr h => exact absurd ho h

theorem Proper.eq_of_byteAt {h : Nat} {t u : ByteTree} (ht : t.Proper h) (hu : u.Proper h)
    (hb : ∀ j, t.byteAt j = u.byteAt j) : t = u := by
  induction ht generalizing u with
  | blank => exact (hu.eq_blank fun j => (hb j).symm).symm
  | leaf hbyte =>
    cases hu with
    | blank => exact absurd (hb 0) (by simpa [byteAt] using hbyte)
    | leaf _ => simpa [byteAt] using hb 0
  | node he ho hne ihe iho =>
    cases hu with
    | blank => exact (Proper.node he ho hne).eq_blank hb
    | node he' ho' _ =>
      rw [ihe he' fun j => by simpa using hb (2 * j),
        iho ho' fun j => by simpa using hb (2 * j + 1)]

end ByteTree

end TraceSampling
