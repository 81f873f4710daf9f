import SpriteVM.Machine.Execute
import SpriteVM.Machine.Snapshot
import SpriteVM.Proofs.Instruction.Decode
import SpriteVM.Text.Integer

namespace SpriteVM

namespace Numeral

/-- The number that upper-case digits in base sixteen stand for. -/
def value (cs : List Char) : Nat :=
  cs.foldl (fun n c => 16 * n + (IntegerText.digit? c).getD 0) 0

theorem upper_digit {d : Nat} (h : d < 16) :
    IntegerText.digit? (Nat.digitChar d).toUpper = some d ∧ (Nat.digitChar d).toUpper ≠ ' ' := by
  have hall : ∀ d : Fin 16, IntegerText.digit? (Nat.digitChar d).toUpper = some d.val ∧
      (Nat.digitChar d).toUpper ≠ ' ' := by decide
  exact hall ⟨d, h⟩

theorem toList_hex (width n : Nat) : ∃ zeros, (hex width n).toList =
    List.replicate zeros '0' ++ (Nat.toDigits 16 n).map Char.toUpper := by
  refine ⟨width - (0 + (upperDigits n).length), ?_⟩
  have hsign : sign (n : Int) = "" := if_neg (by omega)
  simp [hex, zeroFilled, hsign, upperDigits]

theorem value_zeros (zeros : Nat) (cs : List Char) :
    value (List.replicate zeros '0' ++ cs) = value cs := by
  induction zeros with
  | zero => rfl
  | succ zeros ih => exact ih

theorem value_upperDigits (n : Nat) : value ((Nat.toDigits 16 n).map Char.toUpper) = n := by
  induction n using Nat.strongRecOn with
  | ind n ih =>
    by_cases hn : n < 16
    · rw [Nat.toDigits_of_lt_base hn]
      simp [value, upper_digit hn]
    · have hrest := ih (n / 16) (by omega)
      have hdigit := (upper_digit (Nat.mod_lt n (by decide : 0 < 16))).1
      unfold value at hrest ⊢
      rw [Nat.toDigits_of_base_le (by decide) (by omega), List.map_append, List.foldl_append, hrest]
      simp only [List.map_cons, List.map_nil, List.foldl_cons, List.foldl_nil, hdigit,
        Option.getD_some]
      omega

/-- A number is told by its text, whatever zeros stand before it. -/
theorem value_hex (width n : Nat) : value (hex width n).toList = n := by
  obtain ⟨zeros, hzeros⟩ := toList_hex width n
  rw [hzeros, value_zeros, value_upperDigits]

theorem hex_inj {width : Nat} {m n : Int} (hm : 0 ≤ m) (hn : 0 ≤ n)
    (h : hex width m = hex width n) : m = n := by
  obtain ⟨m, rfl⟩ := Int.eq_ofNat_of_zero_le hm
  obtain ⟨n, rfl⟩ := Int.eq_ofNat_of_zero_le hn
  have hvalue := value_hex width m
  rw [h, value_hex] at hvalue
  rw [hvalue]

theorem blank_not_mem_upperDigits (n : Nat) : ' ' ∉ (Nat.toDigits 16 n).map Char.toUpper := by
  induction n using Nat.strongRecOn with
  | ind n ih =>
    by_cases hn : n < 16
    · rw [Nat.toDigits_of_lt_base hn]
      simpa using (upper_digit hn).2.symm
    · have hdigit := (upper_digit (Nat.mod_lt n (by decide : 0 < 16))).2
      rw [Nat.toDigits_of_base_le (by decide) (by omega), List.map_append, List.mem_append]
      rintro (hmem | hmem)
      · exact ih (n / 16) (by omega) hmem
      · rw [List.map_singleton, List.mem_singleton] at hmem
        exact hdigit hmem.symm

theorem blank_not_mem_hex (width : Nat) {n : Int} (hn : 0 ≤ n) : ' ' ∉ (hex width n).toList := by
  obtain ⟨n, rfl⟩ := Int.eq_ofNat_of_zero_le hn
  obtain ⟨zeros, hzeros⟩ := toList_hex width n
  rw [hzeros, List.mem_append]
  rintro (hmem | hmem)
  · exact absurd (List.eq_of_mem_replicate hmem) (by decide)
  · exact blank_not_mem_upperDigits n hmem

end Numeral

namespace Decoded

variable {κ : Type} {d e : Decoded κ}

/-- The pieces of a listing, which blanks keep apart. -/
def pieces (d : Decoded κ) : List String :=
  d.template.mnemonic :: match d.template.shape with
    | .none => []
    | .register => [registerText d.x]
    | .registerPair => [registerText d.x ++ ",", registerText d.y]
    | .registerByte => [registerText d.x ++ ",", byteText d.byte]
    | .address => [addressText d.nnn]
    | .registerPairNibble =>
      [registerText d.x ++ ",", registerText d.y ++ ",", toString d.nibble.val]

theorem text_eq_pieces (d : Decoded κ) : d.text = " ".intercalate d.pieces := by
  unfold text pieces operands
  cases d.template.shape <;> exact String.toList_inj.1 (by simp)

/-- There is no blank in a text. -/
def Unbroken (s : String) : Prop := ' ' ∉ s.toList

theorem eq_of_joined {ps qs : List String} (hp : ∀ p ∈ ps, Unbroken p) (hq : ∀ q ∈ qs, Unbroken q)
    (hps : ps ≠ []) (hqs : qs ≠ []) (h : " ".intercalate ps = " ".intercalate qs) : ps = qs := by
  have hsplit {rs : List String} (hr : ∀ r ∈ rs, Unbroken r) (hrs : rs ≠ []) :
      (" ".intercalate rs).toList.splitOn ' ' = rs.map String.toList := by
    rw [String.toList_intercalate]
    exact List.splitOn_intercalate ' ' (by simpa [Unbroken] using hr) (by simpa using hrs)
  have hmap : ps.map String.toList = qs.map String.toList := by
    rw [← hsplit hp hps, h, hsplit hq hqs]
  exact (List.map_inj_right fun _ _ => String.toList_inj.1).1 hmap

theorem byte_nonneg (d : Decoded κ) : 0 ≤ d.byte := Int.emod_nonneg d.word (by decide)

theorem nnn_nonneg (d : Decoded κ) : 0 ≤ d.nnn := Int.emod_nonneg d.word (by decide)

theorem registerText_unbroken (x : Fin 16) : Unbroken (registerText x) := by
  have hall : ∀ x : Fin 16, ' ' ∉ (registerText x).toList := by decide
  exact hall x

theorem pieces_unbroken (hm : Unbroken d.template.mnemonic) : ∀ p ∈ d.pieces, Unbroken p := by
  have hx := registerText_unbroken d.x
  have hy := registerText_unbroken d.y
  have hbyte : Unbroken (byteText d.byte) := by
    simpa [Unbroken, byteText] using Numeral.blank_not_mem_hex 2 d.byte_nonneg
  have hnnn : Unbroken (addressText d.nnn) := by
    simpa [Unbroken, addressText] using Numeral.blank_not_mem_hex 3 d.nnn_nonneg
  have hnibble : Unbroken (toString d.nibble.val) := by
    have hall : ∀ n : Fin 16, ' ' ∉ (toString n.val).toList := by decide
    exact hall d.nibble
  unfold pieces
  cases d.template.shape <;> simp_all [Unbroken]

theorem pieces_of_text (hd : Unbroken d.template.mnemonic) (he : Unbroken e.template.mnemonic)
    (h : d.text = e.text) : d.pieces = e.pieces := by
  rw [text_eq_pieces, text_eq_pieces] at h
  exact eq_of_joined (pieces_unbroken hd) (pieces_unbroken he) (by simp [pieces]) (by simp [pieces]) h

/-- The instructions have the operands of this shape in common. -/
def Agree : OperandShape → Decoded κ → Decoded κ → Prop
  | .none, _, _ => True
  | .register, d, e => d.x = e.x
  | .registerPair, d, e => d.x = e.x ∧ d.y = e.y
  | .registerByte, d, e => d.x = e.x ∧ d.byte = e.byte
  | .address, d, e => d.nnn = e.nnn
  | .registerPairNibble, d, e => d.x = e.x ∧ d.y = e.y ∧ d.nibble = e.nibble

theorem registerText_inj {x y : Fin 16} (h : registerText x = registerText y) : x = y := by
  have hall : ∀ x y : Fin 16, registerText x = registerText y → x = y := by decide
  exact hall x y h

theorem byteText_inj (h : byteText d.byte = byteText e.byte) : d.byte = e.byte := by
  have hdigits : Numeral.hex 2 d.byte = Numeral.hex 2 e.byte := by simpa [byteText] using h
  exact Numeral.hex_inj d.byte_nonneg e.byte_nonneg hdigits

theorem addressText_inj (h : addressText d.nnn = addressText e.nnn) : d.nnn = e.nnn := by
  have hdigits : Numeral.hex 3 d.nnn = Numeral.hex 3 e.nnn := by simpa [addressText] using h
  exact Numeral.hex_inj d.nnn_nonneg e.nnn_nonneg hdigits

theorem nibbleText_inj {m n : Fin 16} (h : toString m.val = toString n.val) : m = n := by
  have hall : ∀ m n : Fin 16, toString m.val = toString n.val → m = n := by decide
  exact hall m n h

/-- Pieces of the same template tell the operands. -/
theorem agree_of_pieces (ht : d.template = e.template) (h : d.pieces = e.pieces) :
    Agree d.template.shape d e := by
  unfold pieces at h
  rw [← ht] at h
  have hcomma {s t : String} (h : s ++ "," = t ++ ",") : s = t := (String.append_left_inj ",").1 h
  cases hs : d.template.shape <;> simp only [hs, List.cons.injEq, true_and, and_true] at h
  case none => trivial
  case register => exact registerText_inj h
  case registerPair => exact ⟨registerText_inj (hcomma h.1), registerText_inj h.2⟩
  case registerByte => exact ⟨registerText_inj (hcomma h.1), byteText_inj h.2⟩
  case address => exact addressText_inj h
  case registerPairNibble =>
    exact ⟨registerText_inj (hcomma h.1), registerText_inj (hcomma h.2.1), nibbleText_inj h.2.2⟩

/-- A register is never listed as a byte is. -/
theorem byteText_ne_registerText (byte : Int) (x : Fin 16) : byteText byte ≠ registerText x := by
  intro h
  have hlist := congrArg String.toList h
  simp [byteText, registerText] at hlist

end Decoded

/-- The operands that instructions of a kind show. -/
def Kind.shape : Kind → OperandShape
  | .clear | .ret | .nop | .halt | .unknown => .none
  | .addIndex | .fontAddress | .bcd | .storeRegisters | .loadRegisters => .register
  | .skipKeyDown | .skipKeyUp | .waitKey | .readDelay | .writeDelay | .writeSound => .register
  | .skipEqReg | .skipNeReg | .copy | .or | .and | .xor => .registerPair
  | .add | .sub | .shiftRight | .reverseSub | .shiftLeft => .registerPair
  | .skipEqImm | .skipNeImm | .loadImm | .addImm | .random => .registerByte
  | .jump | .call | .jumpOffset | .setIndex => .address
  | .draw => .registerPairNibble

namespace Instruction

open Decoded

variable {d e : Instruction}

/-- All templates, that of unknown words among them. -/
def templates : List (Template Kind) := unknownTemplate :: table

theorem template_mem (word address : Int) : (decode word address).template ∈ templates := by
  obtain ⟨hmem, -⟩ | ⟨htemplate, -⟩ := decode_template word address
  · exact List.mem_cons_of_mem _ hmem
  · rw [htemplate]
    exact List.mem_cons_self

theorem templates_shape : ∀ t ∈ templates, t.shape = t.kind.shape := by decide

theorem templates_unbroken : ∀ t ∈ templates, Unbroken t.mnemonic := by
  unfold Unbroken
  decide

/-- Where a mnemonic stands for instructions of two kinds, one compares or combines a register with a
byte, and the other with a register. -/
theorem templates_mnemonic : ∀ t ∈ templates, ∀ u ∈ templates, t.mnemonic = u.mnemonic →
    t = u ∨ t.shape = .registerByte ∧ u.shape = .registerPair ∨
      t.shape = .registerPair ∧ u.shape = .registerByte := by
  decide

/-- The pieces of a listing tell the template. -/
theorem template_of_pieces (hd : d.template ∈ templates) (he : e.template ∈ templates)
    (h : d.pieces = e.pieces) : d.template = e.template := by
  unfold pieces at h
  obtain ⟨hmnemonic, hrest⟩ := List.cons.inj h
  obtain heq | ⟨hbyte, hpair⟩ | ⟨hpair, hbyte⟩ := templates_mnemonic _ hd _ he hmnemonic
  · exact heq
  · rw [hbyte, hpair] at hrest
    have hlast : byteText d.byte = registerText e.y := by simpa using (List.cons.inj hrest).2
    exact absurd hlast (byteText_ne_registerText _ _)
  · rw [hbyte, hpair] at hrest
    have hlast : registerText d.y = byteText e.byte := by simpa using (List.cons.inj hrest).2
    exact absurd hlast.symm (byteText_ne_registerText _ _)

theorem wordText_unbroken (word address : Int) : Unbroken (decode word address).wordText :=
  Numeral.blank_not_mem_hex 4 (Int.emod_nonneg word (by decide))

/-- A line of the trace tells the pieces of the listing. -/
theorem pieces_of_traceText {w₁ w₂ address : Int}
    (h : (decode w₁ address).traceText = (decode w₂ address).traceText) :
    (decode w₁ address).pieces = (decode w₂ address).pieces := by
  have hjoined (w : Int) : (decode w address).traceText = Numeral.address 6 address ++ " " ++
      " ".intercalate ((decode w address).wordText :: (decode w address).pieces) := by
    rw [traceText, text_eq_pieces]
    exact String.toList_inj.1 (by simp [pieces, decode])
  have hunbroken (w : Int) :
      ∀ p ∈ (decode w address).wordText :: (decode w address).pieces, Unbroken p :=
    List.forall_mem_cons.2 ⟨wordText_unbroken w address,
      pieces_unbroken (templates_unbroken _ (template_mem w address))⟩
  rw [hjoined, hjoined, String.append_right_inj] at h
  have hlists := eq_of_joined (hunbroken w₁) (hunbroken w₂) (by simp) (by simp) h
  exact (List.cons.inj hlists).2

end Instruction

namespace Core

open Decoded Instruction

/-- What an instruction does depends on its kind and the operands that it shows. -/
theorem execute_congr {d e : Instruction} (hk : d.kind = e.kind) (h : Agree e.kind.shape d e) :
    execute d = execute e := by
  unfold execute
  rw [hk]
  generalize e.kind = k at h
  cases k with
  | clear | ret | nop | halt | unknown => rfl
  | addIndex | fontAddress | bcd | storeRegisters | loadRegisters | skipKeyDown | skipKeyUp | waitKey
  | readDelay | writeDelay | writeSound =>
    have hx : d.x = e.x := h
    simp only [hx]
  | skipEqReg | skipNeReg | copy | or | and | xor | add | sub | shiftRight | reverseSub
  | shiftLeft =>
    obtain ⟨hx, hy⟩ : d.x = e.x ∧ d.y = e.y := h
    simp only [hx, hy]
  | skipEqImm | skipNeImm | loadImm | addImm | random =>
    obtain ⟨hx, hbyte⟩ : d.x = e.x ∧ d.byte = e.byte := h
    simp only [hx, hbyte]
  | jump | call | jumpOffset | setIndex =>
    have hnnn : d.nnn = e.nnn := h
    simp only [hnnn]
  | draw =>
    obtain ⟨hx, hy, hnibble⟩ : d.x = e.x ∧ d.y = e.y ∧ d.nibble = e.nibble := h
    simp only [hx, hy, hnibble]

/-- Two instructions at an address that are listed alike, or leave the same line in the trace, come to
the same outcome on every machine. -/
theorem execute_of_listing {w₁ w₂ address : Int}
    (h : (decode w₁ address).text = (decode w₂ address).text ∨
      (decode w₁ address).traceText = (decode w₂ address).traceText) (c : Core) :
    execute (decode w₁ address) c = execute (decode w₂ address) c := by
  have hmem (w : Int) : (decode w address).template ∈ templates := template_mem w address
  have hpieces : (decode w₁ address).pieces = (decode w₂ address).pieces := by
    obtain htext | htrace := h
    · exact pieces_of_text (templates_unbroken _ (hmem w₁)) (templates_unbroken _ (hmem w₂)) htext
    · exact pieces_of_traceText htrace
  have htemplate := template_of_pieces (hmem w₁) (hmem w₂) hpieces
  have hagree := agree_of_pieces htemplate hpieces
  have hshape : (decode w₁ address).template.shape = (decode w₂ address).kind.shape := by
    rw [htemplate]
    exact templates_shape _ (hmem w₂)
  rw [hshape] at hagree
  rw [execute_congr (congrArg Template.kind htemplate) hagree]

/-- The lowest digit of a word that compares registers is not listed, and it does nothing. -/
theorem execute_of_listing_skip : (decode 0x5120 0x200).text = "SE V1, V2" ∧
    (decode 0x512F 0x200).text = "SE V1, V2" ∧
    ∀ c, execute (decode 0x5120 0x200) c = execute (decode 0x512F 0x200) c := by
  have hfirst : (decode 0x5120 0x200).text = "SE V1, V2" := by decide +kernel
  have hsecond : (decode 0x512F 0x200).text = "SE V1, V2" := by decide +kernel
  exact ⟨hfirst, hsecond, execute_of_listing (.inl (hfirst.trans hsecond.symm))⟩

end Core

end SpriteVM
