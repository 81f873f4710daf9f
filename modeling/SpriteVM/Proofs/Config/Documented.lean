import Mathlib.Tactic.SplitIfs
import SpriteVM.Proofs.Config.Accepted

namespace SpriteVM

section Answers

variable {ε α β : Type} {f : α → Except ε β} {xs : List α}

theorem except_bind_isOk {act : Except ε α} {next : α → Except ε β} :
    (∃ b, (act >>= next) = .ok b) ↔ ∃ a, act = .ok a ∧ ∃ b, next a = .ok b := by
  simp only [except_bind_eq_ok]
  rw [exists_comm]
  simp only [exists_and_left]

/-- All items are answered if each of them is. -/
theorem mapM_isOk : (∃ ys, xs.mapM f = .ok ys) ↔ ∀ x ∈ xs, ∃ y, f x = .ok y := by
  induction xs with
  | nil => exact ⟨fun _ => nofun, fun _ => ⟨[], rfl⟩⟩
  | cons x xs ih =>
    rw [List.mapM_cons, except_bind_isOk, List.forall_mem_cons, ← ih]
    constructor
    · rintro ⟨y, hy, hrest⟩
      obtain ⟨ys, hys, -⟩ := except_bind_isOk.1 hrest
      exact ⟨⟨y, hy⟩, ys, hys⟩
    · rintro ⟨⟨y, hy⟩, ys, hys⟩
      exact ⟨y, hy, except_bind_isOk.2 ⟨ys, hys, y :: ys, rfl⟩⟩

end Answers

namespace Value

/-- The integer that a value stands for: it is written as a number or as a text. -/
inductive StandsFor : Value → Int → Prop
  | int (n : Int) : StandsFor (.int n) n
  | text {s : String} {n : Int} (h : IntegerText.read? s = some n) : StandsFor (.text s) n

/-- An entry of a section; where there is no mapping there is none. -/
def entry? (name entry : String) (entries : List (Value × Value)) : Option Value :=
  match field? name entries with
  | some (.map inner) => field? entry inner
  | _ => none

end Value

namespace Settings

open Value (field? entry?)

def sectionNames : List String := ["machine", "program", "host"]

/-- What the entries of a configuration have to be. The values that are `nothing` stand for a section or
a list of keys that is left out; those of other entries are left out by null, if they may be. -/
structure Fits (nothing : Value → Prop) (entries : List (Value × Value)) : Prop where
  sections : ∀ name ∈ sectionNames, ∀ v ∈ field? name entries, nothing v ∨ ∃ inner, v = .map inner
  seed : ∀ v ∈ entry? "machine" "seed" entries, v = .null ∨ ∃ n, v.StandsFor n
  cyclesPerFrame : ∀ v ∈ entry? "host" "cycles_per_frame" entries, ∃ n, v.StandsFor n ∧ 0 < n
  frameRate : ∀ v ∈ entry? "host" "frame_rate" entries, ∃ n, v.StandsFor n ∧ 0 < n
  maxFrames : ∀ v ∈ entry? "host" "max_frames" entries, v = .null ∨ ∃ n, v.StandsFor n
  keys : ∀ v ∈ field? "keys" entries, nothing v ∨
    ∃ items, v = .list items ∧ ∀ w ∈ items, ∃ n, w.StandsFor n ∧ IsKey n
  trace : ∀ v ∈ field? "trace" entries, v = .null ∨ ∃ b, v = .bool b

/-- A configuration as it is documented. -/
def Documented (v : Value) : Prop :=
  v = .null ∨ ∃ entries, v = .map entries ∧ Fits (· = .null) entries

/-- The path can be written out. -/
def PathWritable (entries : List (Value × Value)) : Prop :=
  ∀ v ∈ entry? "program" "path" entries, v.writable = true

/-- A configuration as it is accepted. -/
def Taken (v : Value) : Prop :=
  v = .null ∨ ∃ entries, v = .map entries ∧ Fits (·.isEmpty = true) entries ∧ PathWritable entries

variable {entries inner : List (Value × Value)} {name : String} {v : Value} {o : Option Value} {n : Int}

theorem badInteger_not_ok : badInteger v ≠ .ok n := by
  intro h
  obtain ⟨text, -, h⟩ := except_bind_eq_ok.1 h
  cases h

theorem integer_eq_ok : integer v = .ok n ↔ v.StandsFor n := by
  constructor
  · intro h
    unfold integer at h
    split at h
    · obtain rfl := Except.ok.inj h
      exact .int _
    · split at h
      · next hread =>
        obtain rfl := Except.ok.inj h
        exact .text hread
      · exact absurd h badInteger_not_ok
    · exact absurd h badInteger_not_ok
  · intro h
    cases h with
    | int => rfl
    | text hread => simp only [integer, hread]

theorem optionalInteger_isOk : (∃ a, optionalInteger o = .ok a) ↔
    ∀ v ∈ o, v = .null ∨ ∃ n, v.StandsFor n := by
  cases o with
  | none => exact ⟨fun _ => nofun, fun _ => ⟨none, rfl⟩⟩
  | some v =>
    have hread : (∃ a, (integer v).map some = .ok a) ↔ ∃ n, v.StandsFor n := by
      constructor
      · rintro ⟨a, h⟩
        obtain ⟨n, hn, -⟩ := except_map_eq_ok.1 h
        exact ⟨n, integer_eq_ok.1 hn⟩
      · rintro ⟨n, hn⟩
        exact ⟨some n, except_map_eq_ok.2 ⟨n, integer_eq_ok.2 hn, rfl⟩⟩
    cases v with
    | null => simp [optionalInteger]
    | _ => simpa [optionalInteger] using hread

theorem positive_isOk {usual : Int} (hu : 0 < usual) : (∃ a, positive name o usual = .ok a) ↔
    ∀ v ∈ o, ∃ n, v.StandsFor n ∧ 0 < n := by
  have hread (v : Value) : (∃ a, positive name (some v) usual = .ok a) ↔
      ∃ n, v.StandsFor n ∧ 0 < n := by
    unfold positive
    rw [Option.getD_some, except_bind_isOk]
    simp only [integer_eq_ok]
    refine exists_congr fun n => and_congr_right fun _ => ?_
    by_cases hn : 0 < n
    · simp [hn, pure, Except.pure]
    · rw [if_neg hn, except_bind_isOk]
      simp [hn, throw, throwThe, MonadExceptOf.throw]
  cases o with
  | none =>
    refine ⟨fun _ => nofun, fun _ => ⟨usual, ?_⟩⟩
    unfold positive
    rw [Option.getD_none, integer_eq_ok.2 (.int usual), except_ok_bind, if_pos hu]
    rfl
  | some v => simpa using hread v

theorem switch_isOk : (∃ a, switch name o = .ok a) ↔ ∀ v ∈ o, v = .null ∨ ∃ b, v = .bool b := by
  cases o with
  | none => exact ⟨fun _ => nofun, fun _ => ⟨false, rfl⟩⟩
  | some v =>
    cases v with
    | null | bool => simp [switch]
    | _ =>
      unfold switch
      simp [except_bind_isOk, throw, throwThe, MonadExceptOf.throw]

theorem keyNumber_eq_ok : keyNumber v = .ok n ↔ v.StandsFor n ∧ IsKey n := by
  unfold keyNumber
  rw [except_bind_eq_ok]
  simp only [integer_eq_ok]
  constructor
  · rintro ⟨m, hm, h⟩
    split at h
    · next hkey =>
      obtain rfl := Except.ok.inj h
      exact ⟨hm, hkey⟩
    · obtain ⟨text, -, h⟩ := except_bind_eq_ok.1 h
      cases h
  · rintro ⟨hn, hkey⟩
    exact ⟨n, hn, if_pos hkey⟩

theorem keyList_isOk : (∃ a, keyList o = .ok a) ↔ ∀ v ∈ o, v.isEmpty = true ∨
    ∃ items, v = .list items ∧ ∀ w ∈ items, ∃ n, w.StandsFor n ∧ IsKey n := by
  cases o with
  | none => exact ⟨fun _ => nofun, fun _ => ⟨[], rfl⟩⟩
  | some v =>
    unfold keyList
    dsimp only
    rw [Option.getD_some]
    by_cases hempty : v.isEmpty = true
    · simp [hempty]
    · rw [if_neg hempty]
      cases v with
      | list items =>
        dsimp only
        rw [mapM_isOk]
        simp [keyNumber_eq_ok, hempty]
      | _ => simp [hempty]

theorem pathText_isOk : (∃ a, pathText o = .ok a) ↔ ∀ v ∈ o, v.writable = true := by
  cases o with
  | none => exact ⟨fun _ => nofun, fun _ => ⟨none, rfl⟩⟩
  | some v =>
    have hshown : (∃ a, (shown Value.plain v).map some = .ok a) ↔ v.writable = true := by
      unfold shown
      by_cases hw : v.writable = true
      · simp [hw, Except.map]
      · simp [hw, Except.map]
    cases v with
    | null => simp [pathText, Value.writable]
    | _ => simpa [pathText] using hshown

/-- The mapping of a section that is there, and none where it is left out. -/
def within (name : String) (entries : List (Value × Value)) : List (Value × Value) :=
  match field? name entries with
  | some (.map inner) => inner
  | _ => []

theorem field?_within (name entry : String) (entries : List (Value × Value)) :
    field? entry (within name entries) = entry? name entry entries := by
  unfold within entry?
  split <;> rfl

theorem sectionOf_eq_ok : sectionOf entries name = .ok inner ↔
    (∀ v ∈ field? name entries, v.isEmpty = true ∨ ∃ inner, v = .map inner) ∧
      inner = within name entries := by
  unfold sectionOf within
  cases field? name entries with
  | none => exact ⟨fun h => ⟨nofun, (Except.ok.inj h).symm⟩, fun h => congrArg Except.ok h.2.symm⟩
  | some v =>
    cases v with
    | map given =>
      have hgiven : (if (Value.map given).isEmpty = true then Except.ok [] else Except.ok given) =
          (Except.ok given : Except ConfigFault (List (Value × Value))) := by
        cases given <;> rfl
      refine ⟨fun h => ⟨?_, ?_⟩, fun h => hgiven.trans (congrArg Except.ok h.2.symm)⟩
      · intro v hv
        obtain rfl := Option.some.inj hv
        exact .inr ⟨given, rfl⟩
      · exact (Except.ok.inj (hgiven.symm.trans h)).symm
    | _ =>
      rw [Option.getD_some]
      dsimp only
      split_ifs with hempty
      · refine ⟨fun h => ⟨?_, (Except.ok.inj h).symm⟩, fun h => congrArg Except.ok h.2.symm⟩
        intro v hv
        obtain rfl := Option.some.inj hv
        exact .inl hempty
      · refine ⟨fun h => (nomatch h), fun h => ?_⟩
        obtain hnothing | ⟨inner, hmap⟩ := h.1 _ rfl
        · exact absurd hnothing hempty
        · cases hmap

/-- The entries that are accepted are exactly these. -/
theorem ofEntries_isOk : (∃ s, ofEntries entries = .ok s) ↔
    Fits (·.isEmpty = true) entries ∧ PathWritable entries := by
  have hten : (0 : Int) < 10 := by decide
  have hsixty : (0 : Int) < 60 := by decide
  unfold ofEntries
  simp only [except_bind_isOk, sectionOf_eq_ok, and_assoc, exists_and_left, exists_eq_left,
    field?_within]
  constructor
  · rintro ⟨hmachine, seed, hseed, hprogram, path, hpath, hhost, cycles, hcycles, rate, hrate, frames,
      hframes, keys, hkeys, trace, htrace, -⟩
    refine ⟨?_, pathText_isOk.1 ⟨path, hpath⟩⟩
    constructor
    case sections => simpa [sectionNames] using ⟨hmachine, hprogram, hhost⟩
    case seed => exact optionalInteger_isOk.1 ⟨seed, hseed⟩
    case cyclesPerFrame => exact (positive_isOk hten).1 ⟨cycles, hcycles⟩
    case frameRate => exact (positive_isOk hsixty).1 ⟨rate, hrate⟩
    case maxFrames => exact optionalInteger_isOk.1 ⟨frames, hframes⟩
    case keys => exact keyList_isOk.1 ⟨keys, hkeys⟩
    case trace => exact switch_isOk.1 ⟨trace, htrace⟩
  · rintro ⟨hfits, hwritable⟩
    have hsections := hfits.sections
    simp only [sectionNames, List.forall_mem_cons] at hsections
    obtain ⟨hmachine, hprogram, hhost, -⟩ := hsections
    obtain ⟨seed, hseed⟩ := optionalInteger_isOk.2 hfits.seed
    obtain ⟨path, hpath⟩ := pathText_isOk.2 hwritable
    obtain ⟨cycles, hcycles⟩ := (positive_isOk hten).2 hfits.cyclesPerFrame
    obtain ⟨rate, hrate⟩ := (positive_isOk hsixty).2 hfits.frameRate
    obtain ⟨frames, hframes⟩ := optionalInteger_isOk.2 hfits.maxFrames
    obtain ⟨keys, hkeys⟩ := keyList_isOk.2 hfits.keys
    obtain ⟨trace, htrace⟩ := switch_isOk.2 hfits.trace
    exact ⟨hmachine, seed, hseed, hprogram, path, hpath, hhost, cycles, hcycles, rate, hrate, frames,
      hframes, keys, hkeys, trace, htrace, _, rfl⟩

theorem ofValue_isOk : (∃ s, ofValue v = .ok s) ↔ Taken v := by
  cases v with
  | null => exact ⟨fun _ => .inl rfl, fun _ => ⟨standard, rfl⟩⟩
  | map entries =>
    have hmap : Taken (.map entries) ↔ Fits (·.isEmpty = true) entries ∧ PathWritable entries := by
      simp [Taken]
    exact ofEntries_isOk.trans hmap.symm
  | _ => simp [ofValue, Taken]

end Settings

end SpriteVM
