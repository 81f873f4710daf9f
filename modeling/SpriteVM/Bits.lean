namespace SpriteVM.Bits

/-- The bits of `m` that `n` lacks. -/
def without (m n : Nat) : Nat := m ^^^ (m &&& n)

def and : Int → Int → Int
  | .ofNat m, .ofNat n => .ofNat (m &&& n)
  | .ofNat m, .negSucc n => .ofNat (without m n)
  | .negSucc m, .ofNat n => .ofNat (without n m)
  | .negSucc m, .negSucc n => .negSucc (m ||| n)

def or : Int → Int → Int
  | .ofNat m, .ofNat n => .ofNat (m ||| n)
  | .ofNat m, .negSucc n => .negSucc (without n m)
  | .negSucc m, .ofNat n => .negSucc (without m n)
  | .negSucc m, .negSucc n => .negSucc (m &&& n)

def xor : Int → Int → Int
  | .ofNat m, .ofNat n => .ofNat (m ^^^ n)
  | .ofNat m, .negSucc n => .negSucc (m ^^^ n)
  | .negSucc m, .ofNat n => .negSucc (m ^^^ n)
  | .negSucc m, .negSucc n => .ofNat (m ^^^ n)

/-- Whether a bit is set; of a negative number all but finitely many are. -/
def test : Int → Nat → Bool
  | .ofNat m, k => m.testBit k
  | .negSucc m, k => !m.testBit k

@[simp] theorem and_natCast (m n : Nat) : and m n = ((m &&& n : Nat) : Int) := rfl

@[simp] theorem or_natCast (m n : Nat) : or m n = ((m ||| n : Nat) : Int) := rfl

@[simp] theorem xor_natCast (m n : Nat) : xor m n = ((m ^^^ n : Nat) : Int) := rfl

theorem testBit_without (m n k : Nat) :
    (without m n).testBit k = (m.testBit k && !n.testBit k) := by
  cases hm : m.testBit k <;> simp [without, hm]

theorem test_and (a b : Int) (k : Nat) : test (and a b) k = (test a k && test b k) := by
  cases a <;> cases b <;> simp [and, test, testBit_without, Bool.and_comm]

theorem test_or (a b : Int) (k : Nat) : test (or a b) k = (test a k || test b k) := by
  cases a <;> cases b <;> simp [or, test, testBit_without, Bool.or_comm]

theorem test_xor (a b : Int) (k : Nat) : test (xor a b) k = Bool.xor (test a k) (test b k) := by
  cases a <;> cases b <;> simp [xor, test]

end SpriteVM.Bits
