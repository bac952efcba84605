import Mathlib.Data.Nat.Notation
import Mathlib.Tactic.IntervalCases

/-! # Words in network byte order

`ByteOrder.ntohl` is what `ntohl` and `htonl` do on a host that stores the least significant
byte first: it reverses the four bytes of a word. It is its own inverse
(`ByteOrder.ntohl_ntohl`), and a word is what stands above a bit together with what stands
below it (`ByteOrder.above_or_below`).
-/

namespace ByteOrder

/-- Reverse the four bytes of a word. -/
def ntohl (word : BitVec 32) : BitVec 32 :=
  (word &&& 0xff) <<< 24 ||| (word &&& 0xff00) <<< 8 ||| (word >>> 8) &&& 0xff00 ||| word >>> 24

variable {width : ℕ}

/-- Each bit comes from the byte at the other end. -/
theorem getLsbD_ntohl (word : BitVec 32) {index : ℕ} (inside : index < 32) :
    (ntohl word).getLsbD index = word.getLsbD ((3 - index / 8) * 8 + index % 8) := by
  simp only [ntohl]
  interval_cases index <;> simp

theorem ntohl_ntohl (word : BitVec 32) : ntohl (ntohl word) = word := by
  apply BitVec.eq_of_getLsbD_eq
  intro index inside
  rw [getLsbD_ntohl _ inside, getLsbD_ntohl _ (by omega)]
  congr 1
  omega

theorem ntohl_inj {left right : BitVec 32} : ntohl left = ntohl right ↔ left = right := by
  refine ⟨fun same => ?_, fun same => same ▸ rfl⟩
  rw [← ntohl_ntohl left, same, ntohl_ntohl]

theorem ntohl_or (left right : BitVec 32) :
    ntohl (left ||| right) = ntohl left ||| ntohl right := by
  apply BitVec.eq_of_getLsbD_eq
  intro index inside
  rw [BitVec.getLsbD_or, getLsbD_ntohl _ inside, getLsbD_ntohl _ inside, getLsbD_ntohl _ inside,
    BitVec.getLsbD_or]

/-- The bits of a word from one on, in their places. -/
def above (count : ℕ) (word : BitVec width) : BitVec width :=
  word >>> count <<< count

/-- The bits of a word before one. -/
def below (count : ℕ) (word : BitVec width) : BitVec width :=
  word &&& ~~~(BitVec.allOnes width <<< count)

theorem above_or_below (count : ℕ) (word : BitVec width) :
    above count word ||| below count word = word := by
  apply BitVec.eq_of_getLsbD_eq
  intro index inside
  rw [above, below]
  by_cases low : index < count
  · simp [low, inside]
  · simp [low, inside, Nat.add_sub_cancel' (Nat.le_of_not_lt low)]

end ByteOrder
