import SpriteVM.Config.File

namespace SpriteVM

section Answers

variable {ε α β : Type}

theorem except_ok_bind (a : α) (next : α → Except ε β) : (Except.ok a >>= next) = next a := rfl

theorem except_bind_eq_ok {act : Except ε α} {next : α → Except ε β} {b : β} :
    (act >>= next) = .ok b ↔ ∃ a, act = .ok a ∧ next a = .ok b := by
  cases act with
  | ok a => simp [bind, Except.bind]
  | error f => simp [bind, Except.bind]

theorem except_map_eq_ok {act : Except ε α} {g : α → β} {b : β} :
    act.map g = .ok b ↔ ∃ a, act = .ok a ∧ g a = b := by
  cases act with
  | ok a => simp [Except.map]
  | error f => simp [Except.map]

/-- What holds of every answer to one item holds of the answers to all of them. -/
theorem forall_mem_of_mapM {P : β → Prop} {f : α → Except ε β} (hf : ∀ x y, f x = .ok y → P y)
    {xs : List α} {ys : List β} (h : xs.mapM f = .ok ys) : ∀ y ∈ ys, P y := by
  induction xs generalizing ys with
  | nil =>
    obtain rfl := Except.ok.inj h
    simp
  | cons x xs ih =>
    rw [List.mapM_cons] at h
    obtain ⟨y, hy, h⟩ := except_bind_eq_ok.1 h
    obtain ⟨ys', hys, h⟩ := except_bind_eq_ok.1 h
    obtain rfl := Except.ok.inj h
    exact List.forall_mem_cons.2 ⟨hf x y hy, ih hys⟩

end Answers

/-- The number of a key that there is. -/
def IsKey (k : Int) : Prop := 0 ≤ k ∧ k < 16

namespace Settings

variable {s : Settings} {v : Option Value} {n : Int} {name : String}

/-- Settings that a machine can be set up with and run. -/
structure Valid (s : Settings) : Prop where
  cyclesPerFrame : 1 ≤ s.cyclesPerFrame
  frameRate : 1 ≤ s.frameRate
  keys : ∀ k ∈ s.keys, IsKey k

theorem standard_valid : standard.Valid where
  cyclesPerFrame := by decide
  frameRate := by decide
  keys := nofun

theorem positive_of_accepted {usual : Int} (h : positive name v usual = .ok n) : 1 ≤ n := by
  unfold positive at h
  obtain ⟨m, -, h⟩ := except_bind_eq_ok.1 h
  split at h
  · next hpos =>
    obtain rfl := Except.ok.inj h
    exact hpos
  · obtain ⟨text, -, h⟩ := except_bind_eq_ok.1 h
    cases h

theorem isKey_of_accepted {v : Value} (h : keyNumber v = .ok n) : IsKey n := by
  unfold keyNumber at h
  obtain ⟨m, -, h⟩ := except_bind_eq_ok.1 h
  split at h
  · next hkey =>
    obtain rfl := Except.ok.inj h
    exact hkey
  · obtain ⟨text, -, h⟩ := except_bind_eq_ok.1 h
    cases h

theorem keys_of_accepted {keys : List Int} (h : keyList v = .ok keys) : ∀ k ∈ keys, IsKey k := by
  unfold keyList at h
  dsimp only at h
  split at h
  · obtain rfl := Except.ok.inj h
    simp
  · split at h
    · exact forall_mem_of_mapM (fun _ _ => isKey_of_accepted) h
    · cases h

theorem ofEntries_valid {entries : List (Value × Value)} (h : ofEntries entries = .ok s) :
    s.Valid := by
  unfold ofEntries at h
  obtain ⟨machine, -, h⟩ := except_bind_eq_ok.1 h
  obtain ⟨seed, -, h⟩ := except_bind_eq_ok.1 h
  obtain ⟨program, -, h⟩ := except_bind_eq_ok.1 h
  obtain ⟨file, -, h⟩ := except_bind_eq_ok.1 h
  obtain ⟨host, -, h⟩ := except_bind_eq_ok.1 h
  obtain ⟨cycles, hcycles, h⟩ := except_bind_eq_ok.1 h
  obtain ⟨rate, hrate, h⟩ := except_bind_eq_ok.1 h
  obtain ⟨frames, -, h⟩ := except_bind_eq_ok.1 h
  obtain ⟨keys, hkeys, h⟩ := except_bind_eq_ok.1 h
  obtain ⟨trace, -, h⟩ := except_bind_eq_ok.1 h
  obtain rfl := Except.ok.inj h
  exact ⟨positive_of_accepted hcycles, positive_of_accepted hrate, keys_of_accepted hkeys⟩

theorem ofValue_valid {v : Value} (h : ofValue v = .ok s) : s.Valid := by
  cases v with
  | null =>
    obtain rfl := Except.ok.inj h
    exact standard_valid
  | map entries => exact ofEntries_valid h
  | _ => cases h

theorem ofTextBy_valid {read : Reader} {text : String} (h : ofTextBy read text = .ok s) : s.Valid := by
  obtain ⟨v, -, h⟩ := except_bind_eq_ok.1 h
  exact ofValue_valid h

end Settings

theorem Files.read_eq_error {fs : Files} {path : String} {f : Fault} (h : fs.read path = .error f) :
    ∃ cause, f = .file cause path := by
  unfold Files.read at h
  cases hc : fs.content path with
  | ok bytes =>
    rw [hc] at h
    cases h
  | error cause =>
    rw [hc] at h
    exact ⟨cause, (Except.error.inj h).symm⟩

namespace ConfigFault

theorem kind_cases (f : ConfigFault) : f.kind = .value ∨ f.kind = .configuration := by
  cases f <;> simp [kind]

end ConfigFault

namespace SettingsFault

def kind : SettingsFault → FaultClass
  | file f => f.kind
  | encoding => .value
  | config f => f.kind

end SettingsFault

namespace Settings

/-- Why a file gives no settings: it cannot be read, it is not UTF-8, or its text is refused. -/
inductive Rejected (read : Reader) (fs : Files) (path : String) : SettingsFault → Prop
  | unreadable {f : Fault} (hr : fs.read path = .error f) : Rejected read fs path (.file f)
  | encoding {bytes : List UInt8} (hr : fs.read path = .ok bytes)
    (ht : String.fromUTF8? ⟨bytes.toArray⟩ = none) : Rejected read fs path .encoding
  | refused {bytes : List UInt8} {text : String} {f : ConfigFault} (hr : fs.read path = .ok bytes)
    (ht : String.fromUTF8? ⟨bytes.toArray⟩ = some text)
    (hf : ofTextBy read (String.ofList (lineFeeds text.toList)) = .error f) :
    Rejected read fs path (.config (named path f))

variable {read : Reader} {fs : Files} {path : String} {s : Settings} {f : SettingsFault}

section Bytes

variable {bytes : List UInt8} (hr : fs.read path = .ok bytes)

include hr

theorem mapError_of_read : (fs.read path).mapError SettingsFault.file = .ok bytes := by
  rw [hr]
  rfl

theorem ofFile_of_encoding (ht : String.fromUTF8? ⟨bytes.toArray⟩ = none) :
    ofFile read fs path = .error .encoding := by
  unfold ofFile
  rw [mapError_of_read hr, except_ok_bind, ht]
  rfl

theorem ofFile_of_text {text : String} (ht : String.fromUTF8? ⟨bytes.toArray⟩ = some text) :
    ofFile read fs path =
      ((ofTextBy read (String.ofList (lineFeeds text.toList))).mapError (named path)).mapError
        .config := by
  unfold ofFile
  rw [mapError_of_read hr, except_ok_bind, ht]

end Bytes

theorem ofFile_of_rejected (h : Rejected read fs path f) : ofFile read fs path = .error f := by
  cases h with
  | unreadable hr =>
    unfold ofFile
    rw [hr]
    rfl
  | encoding hr ht => exact ofFile_of_encoding hr ht
  | refused hr ht hf =>
    rw [ofFile_of_text hr ht, hf]
    rfl

/-- A file is rejected for one of these causes, or else it gives settings that can be run. -/
theorem ofFile_cases (read : Reader) (fs : Files) (path : String) :
    (∃ f, Rejected read fs path f) ∨ ∃ s, ofFile read fs path = .ok s ∧ s.Valid := by
  cases hr : fs.read path with
  | error f => exact .inl ⟨_, .unreadable hr⟩
  | ok bytes =>
    cases ht : String.fromUTF8? ⟨bytes.toArray⟩ with
    | none => exact .inl ⟨_, .encoding hr ht⟩
    | some text =>
      cases hs : ofTextBy read (String.ofList (lineFeeds text.toList)) with
      | error f => exact .inl ⟨_, .refused hr ht hs⟩
      | ok s =>
        have hfile : ofFile read fs path = .ok s := by
          rw [ofFile_of_text hr ht, hs]
          rfl
        exact .inr ⟨s, hfile, ofTextBy_valid hs⟩

theorem ofFile_valid (hs : ofFile read fs path = .ok s) : s.Valid := by
  rcases ofFile_cases read fs path with ⟨f, hf⟩ | ⟨t, ht, hv⟩
  · rw [ofFile_of_rejected hf] at hs
    cases hs
  · obtain rfl := Except.ok.inj (hs.symm.trans ht)
    exact hv

end Settings

end SpriteVM
