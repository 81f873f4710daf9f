import SpriteVM.Text.Integer

namespace SpriteVM.IntegerText

variable {base n d : Nat} {c mark : Char} {cs sign : List Char} {ds : List Nat}

section Digit

theorem digit?_eq (c : Char) : digit? c =
    if 48 ≤ c.toNat ∧ c.toNat ≤ 57 then some (c.toNat - 48)
    else if 97 ≤ c.toNat ∧ c.toNat ≤ 122 then some (c.toNat - 87)
    else if 65 ≤ c.toNat ∧ c.toNat ≤ 90 then some (c.toNat - 55)
    else none := by
  simp only [digit?, Bool.and_eq_true, decide_eq_true_eq, Char.le_def, UInt32.le_iff_toNat_le]
  rfl

theorem toNat_toLower (c : Char) :
    c.toLower.toNat = if 65 ≤ c.toNat ∧ c.toNat ≤ 90 then c.toNat + 32 else c.toNat := by
  unfold Char.toLower
  simp only [ge_iff_le, UInt32.le_iff_toNat_le]
  change (if h : 65 ≤ c.toNat ∧ c.toNat ≤ 90 then _ else c).toNat = _
  split
  · next h =>
    have hfit : c.toNat + 32 < 2 ^ 32 := by omega
    exact Nat.mod_eq_of_lt hfit
  · rfl

/-- The case of a digit does not matter. -/
theorem digit?_toLower (c : Char) : digit? c.toLower = digit? c := by
  rw [digit?_eq, digit?_eq, toNat_toLower]
  by_cases h : 65 ≤ c.toNat ∧ c.toNat ≤ 90
  · grind
  · rw [if_neg h]

theorem digit?_digitChar (h : d < 16) : digit? (Nat.digitChar d) = some d := by
  have hall : ∀ d : Fin 16, digit? (Nat.digitChar d) = some d.val := by decide
  exact hall ⟨d, h⟩

theorem digitIn?_digitChar (hbase : base ≤ 16) (h : d < base) :
    digitIn? base (Nat.digitChar d) = some d := by
  unfold digitIn?
  rw [digit?_digitChar (Nat.lt_of_lt_of_le h hbase)]
  simpa using h

theorem digitIn?_eq_some : digitIn? base c = some d ↔ digit? c = some d ∧ d < base := by
  simp [digitIn?, Option.filter_eq_some_iff]

/-- A digit is none of the other marks that a text may hold. -/
theorem digit?_range (h : digit? c = some d) : 48 ≤ c.toNat ∧ c.toNat ≤ 122 ∧ c.toNat ≠ 95 := by
  rw [digit?_eq] at h
  split at h
  · omega
  · split at h
    · omega
    · split at h
      · omega
      · cases h

end Digit

section Reading

/-- The character stands for itself, and at an end as well. -/
def Stays (c : Char) : Prop := narrow c = c ∧ isAsciiBlank c = false

instance : DecidablePred Stays := fun _ => inferInstanceAs (Decidable (_ ∧ _))

theorem stays_of_digit (h : digit? c = some d) : Stays c := by
  obtain ⟨hlow, hhigh, -⟩ := digit?_range h
  refine ⟨if_pos (by omega), ?_⟩
  simp only [isAsciiBlank, Bool.or_eq_false_iff, Bool.and_eq_false_iff, decide_eq_false_iff_not]
  omega

theorem dropWhile_blank (h : ∀ c ∈ cs, Stays c) : cs.dropWhile isAsciiBlank = cs := by
  cases cs with
  | nil => rfl
  | cons c cs => rw [List.dropWhile_cons, if_neg (Bool.eq_false_iff.1 (h c List.mem_cons_self).2)]

theorem trim_narrow (h : ∀ c ∈ cs, Stays c) : trim (cs.map narrow) = cs := by
  have hnarrow : cs.map narrow = cs := (List.map_congr_left fun c hc => (h c hc).1).trans cs.map_id
  have hreverse : ∀ c ∈ cs.reverse, Stays c := fun c hc => h c (List.mem_reverse.1 hc)
  rw [hnarrow, trim, dropWhile_blank h, dropWhile_blank hreverse, List.reverse_reverse]

theorem exists_digit (h : cs.map (digitIn? base) = ds.map some) (hc : c ∈ cs) :
    ∃ d, digit? c = some d ∧ d < base := by
  have hmem : digitIn? base c ∈ ds.map some := h ▸ List.mem_map_of_mem hc
  obtain ⟨d, -, hd⟩ := List.mem_map.1 hmem
  exact ⟨d, digitIn?_eq_some.1 hd.symm⟩

theorem stays_of_digits (h : cs.map (digitIn? base) = ds.map some) (hc : c ∈ cs) : Stays c := by
  obtain ⟨d, hd, -⟩ := exists_digit h hc
  exact stays_of_digit hd

theorem ne_underscore (h : cs.map (digitIn? base) = ds.map some) (after : List Char) :
    cs ≠ '_' :: after := by
  rintro rfl
  obtain ⟨d, hd, -⟩ := exists_digit h List.mem_cons_self
  exact (digit?_range hd).2.2 rfl

/-- Digits alone have no sign. -/
theorem signed_digits (h : cs.map (digitIn? base) = ds.map some) : signed cs = (false, cs) := by
  unfold signed
  split
  · obtain ⟨d, hd, -⟩ := exists_digit h List.mem_cons_self
    exact absurd (digit?_range hd).1 (by decide)
  · obtain ⟨d, hd, -⟩ := exists_digit h List.mem_cons_self
    exact absurd (digit?_range hd).1 (by decide)
  · rfl

/-- Decimal digits do not begin as hexadecimal ones do. -/
theorem isHex_digits (h : cs.map (digitIn? 10) = ds.map some) : isHex (String.ofList cs) = false := by
  rw [isHex, String.toList_ofList]
  split
  · next c rest =>
    obtain ⟨d, hd, hten⟩ := exists_digit h (List.mem_cons_of_mem _ List.mem_cons_self)
    simp only [Bool.or_eq_false_iff, decide_eq_false_iff_not]
    constructor
    · rintro rfl
      obtain rfl := Option.some.inj hd
      exact absurd hten (by decide)
    · rintro rfl
      obtain rfl := Option.some.inj hd
      exact absurd hten (by decide)
  · rfl

theorem digits?_of_map (hcs : cs ≠ []) (h : cs.map (digitIn? base) = ds.map some) :
    digits? base cs = some ds := by
  induction cs generalizing ds with
  | nil => exact absurd rfl hcs
  | cons c rest ih =>
    obtain ⟨d, ds, rfl, hd, hrest⟩ := List.map_eq_cons_iff.1 h.symm
    cases rest with
    | nil =>
      obtain rfl := List.map_eq_nil_iff.1 hrest
      simp [digits?, ← hd]
    | cons next rest =>
      rw [digits?]
      · simp [← hd, ih (List.cons_ne_nil _ _) hrest.symm]
      · exact List.cons_ne_nil _ _
      · exact ne_underscore hrest.symm

end Reading

section Written

/-- The digits of a number as they are written: their values, and what these amount to. -/
theorem map_toDigits (hone : 1 < base) (hbase : base ≤ 16) (n : Nat) :
    ∃ ds, (Nat.toDigits base n).map (digitIn? base) = ds.map some ∧ valueOf base ds = n := by
  induction n using Nat.strongRecOn with
  | ind n ih =>
    by_cases hn : n < base
    · refine ⟨[n], ?_, by simp [valueOf]⟩
      rw [Nat.toDigits_of_lt_base hn]
      simp [digitIn?_digitChar hbase hn]
    · have hle : base ≤ n := Nat.le_of_not_lt hn
      have hlast : n % base < base := Nat.mod_lt _ (by omega)
      obtain ⟨ds, hds, hvalue⟩ := ih (n / base) (Nat.div_lt_self (by omega) hone)
      refine ⟨ds ++ [n % base], ?_, ?_⟩
      · rw [Nat.toDigits_of_base_le hone hle, List.map_append, List.map_append, hds]
        simp [digitIn?_digitChar hbase hlast]
      · rw [valueOf, List.foldl_append]
        change valueOf base ds * base + n % base = n
        rw [hvalue, Nat.div_add_mod']

/-- The numbers that are written are those with digits few enough. -/
theorem writable_iff {n : Int} :
    writable n = true ↔ (Nat.toDigits 10 n.natAbs).length ≤ maxDigits := by
  -- the bound is kept as a variable, or the power of ten would be computed
  have hbound (k : Nat) (hk : 0 < k) : n.natAbs < Nat.pow 10 k ↔
      (Nat.toDigits 10 n.natAbs).length ≤ k := (Nat.length_toDigits_le_iff (by decide) hk).symm
  rw [writable, decide_eq_true_eq]
  exact hbound maxDigits (by decide)

end Written

section Decimal

variable (hlen : (Nat.toDigits 10 n).length ≤ maxDigits)

include hlen

/-- Decimal digits are read with a sign before them or none. -/
theorem read?_decimal (hsign : sign = [] ∨ sign = ['+'] ∨ sign = ['-']) :
    read? (String.ofList (sign ++ Nat.toDigits 10 n)) =
      some (if sign = ['-'] then -(n : Int) else n) := by
  have hone : 1 < 10 := by decide
  obtain ⟨ds, hds, hvalue⟩ := map_toDigits hone (by decide) n
  have hread : digits? 10 (Nat.toDigits 10 n) = some ds := digits?_of_map Nat.toDigits_ne_nil hds
  have hcount : ds.length ≤ maxDigits := by
    have hsame : (Nat.toDigits 10 n).length = ds.length := by simpa using congrArg List.length hds
    rwa [← hsame]
  have hstays : ∀ c ∈ sign ++ Nat.toDigits 10 n, Stays c := by
    have hmark : ∀ c ∈ sign, Stays c := by
      obtain rfl | rfl | rfl := hsign
      · nofun
      · exact List.forall_mem_singleton.2 (by decide)
      · exact List.forall_mem_singleton.2 (by decide)
    intro c hc
    exact (List.mem_append.1 hc).elim (hmark c) (stays_of_digits hds)
  have hhex : isHex (String.ofList (sign ++ Nat.toDigits 10 n)) = false := by
    obtain rfl | rfl | rfl := hsign
    · exact isHex_digits hds
    · rw [isHex, String.toList_ofList]
      rfl
    · rw [isHex, String.toList_ofList]
      rfl
  have hsigned : signed (sign ++ Nat.toDigits 10 n) =
      (decide (sign = ['-']), Nat.toDigits 10 n) := by
    obtain rfl | rfl | rfl := hsign
    · exact signed_digits hds
    · rfl
    · rfl
  rw [read?, hhex, if_neg (by decide), decimal?, String.toList_ofList, trim_narrow hstays, hsigned]
  simp [hread, Nat.not_lt_of_le hcount, hvalue]

theorem read?_digits : read? (toString n) = some (n : Int) := by
  rw [Nat.toString_eq_ofList_toDigits, ← List.nil_append (Nat.toDigits 10 n),
    read?_decimal hlen (.inl rfl), if_neg (by decide)]

theorem read?_plus : read? ("+" ++ toString n) = some (n : Int) := by
  have htext : "+" ++ toString n = String.ofList (['+'] ++ Nat.toDigits 10 n) := by
    rw [Nat.toString_eq_ofList_toDigits, String.ofList_append]
  rw [htext, read?_decimal hlen (.inr (.inl rfl)), if_neg (by decide)]

theorem read?_minus : read? ("-" ++ toString n) = some (-(n : Int)) := by
  have htext : "-" ++ toString n = String.ofList (['-'] ++ Nat.toDigits 10 n) := by
    rw [Nat.toString_eq_ofList_toDigits, String.ofList_append]
  rw [htext, read?_decimal hlen (.inr (.inr rfl)), if_pos rfl]

end Decimal

section Hexadecimal

/-- The digits of a number, those above nine in either case. -/
def Spells (base n : Nat) (cs : List Char) : Prop := cs.map Char.toLower = Nat.toDigits base n

theorem Spells.map (h : Spells base n cs) (hone : 1 < base) (hbase : base ≤ 16) :
    ∃ ds, cs.map (digitIn? base) = ds.map some ∧ valueOf base ds = n := by
  obtain ⟨ds, hds, hvalue⟩ := map_toDigits hone hbase n
  refine ⟨ds, ?_, hvalue⟩
  rw [← hds, ← h, List.map_map]
  refine List.map_congr_left fun c _ => ?_
  simp [digitIn?, digit?_toLower]

theorem Spells.ne_nil (h : Spells base n cs) : cs ≠ [] := by
  rintro rfl
  exact Nat.toDigits_ne_nil h.symm

/-- Hexadecimal digits are read behind their prefix, however many there are. -/
theorem read?_hex (h : Spells 16 n cs) (hmark : mark = 'x' ∨ mark = 'X') :
    read? (String.ofList ('0' :: mark :: cs)) = some (n : Int) := by
  obtain ⟨ds, hds, hvalue⟩ := h.map (by decide) (by decide)
  have hread : digits? 16 cs = some ds := digits?_of_map h.ne_nil hds
  have hstays : ∀ c ∈ '0' :: mark :: cs, Stays c := by
    have hzero : Stays '0' := by decide
    have hmark : Stays mark := by obtain rfl | rfl := hmark <;> decide
    have hrest : ∀ c ∈ cs, Stays c := fun _ => stays_of_digits hds
    exact List.forall_mem_cons.2 ⟨hzero, List.forall_mem_cons.2 ⟨hmark, hrest⟩⟩
  have hhex : isHex (String.ofList ('0' :: mark :: cs)) = true := by
    rw [isHex, String.toList_ofList]
    simpa using hmark
  rw [read?, if_pos hhex, hex?, String.toList_ofList, trim_narrow hstays]
  simp only [List.drop_succ_cons, List.drop_zero]
  split
  · next after => exact absurd rfl (ne_underscore hds after)
  · rw [hread, ← hvalue]
    rfl

end Hexadecimal

end SpriteVM.IntegerText
