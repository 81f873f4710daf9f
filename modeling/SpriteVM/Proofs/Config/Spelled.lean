import SpriteVM.Proofs.Config.Documented
import SpriteVM.Proofs.Text.Integer

namespace SpriteVM

section Answers

variable {ε α β : Type} {f : α → Except ε β} {xs : List α} {ys : List β} {i : Nat}

/-- One item put in the place of another changes the answer to that one. -/
theorem mapM_set (x : α) (h : xs.mapM f = .ok ys) (hi : i < xs.length) :
    (xs.set i x).mapM f = (f x).map fun y => ys.set i y := by
  induction xs generalizing ys i with
  | nil => exact absurd hi (Nat.not_lt_zero i)
  | cons first rest ih =>
    rw [List.mapM_cons] at h
    obtain ⟨y, hy, h⟩ := except_bind_eq_ok.1 h
    obtain ⟨ys', hys, h⟩ := except_bind_eq_ok.1 h
    obtain rfl := Except.ok.inj h
    cases i with
    | zero =>
      rw [List.set_cons_zero, List.mapM_cons, hys]
      cases f x <;> rfl
    | succ i =>
      rw [List.set_cons_succ, List.mapM_cons, hy, except_ok_bind, ih hys (Nat.lt_of_succ_lt_succ hi)]
      cases f x <;> rfl

end Answers

namespace Value

/-- The value writes the integer: as a number, or as a text with digits of it. -/
inductive Writes : Value → Int → Prop
  | number (n : Int) : Writes (.int n) n
  | digits (n : Nat) : Writes (.text (toString n)) n
  | plus (n : Nat) : Writes (.text ("+" ++ toString n)) n
  | minus (n : Nat) : Writes (.text ("-" ++ toString n)) (-n)
  | hex {n : Nat} {mark : Char} {cs : List Char} (hmark : mark = 'x' ∨ mark = 'X')
    (h : IntegerText.Spells 16 n cs) : Writes (.text (String.ofList ('0' :: mark :: cs))) n

variable {v k : Value} {n : Int} {entries : List (Value × Value)}

theorem Writes.standsFor (h : v.Writes n)
    (hn : (Nat.toDigits 10 n.natAbs).length ≤ IntegerText.maxDigits) : v.StandsFor n := by
  cases h with
  | number => exact .int n
  | digits m =>
    rw [Int.natAbs_natCast] at hn
    exact .text (IntegerText.read?_digits hn)
  | plus m =>
    rw [Int.natAbs_natCast] at hn
    exact .text (IntegerText.read?_plus hn)
  | minus m =>
    rw [Int.natAbs_neg, Int.natAbs_natCast] at hn
    exact .text (IntegerText.read?_minus hn)
  | hex hmark h => exact .text (IntegerText.read?_hex h hmark)

theorem eq_of_sameKey_text {name : String} (h : k.sameKey (text name) = true) : k = text name := by
  cases k <;> simp_all [sameKey, whole?]

theorem field?_cons (name : String) (k v : Value) (rest : List (Value × Value)) :
    field? name ((k, v) :: rest) = if k.sameKey (text name) then some v else field? name rest := by
  cases k <;> simp [field?, sameKey, whole?]

/-- What is put under a name is found under that name only. -/
theorem field?_insert (name other : String) (v : Value) (entries : List (Value × Value)) :
    field? other (insert (text name) v entries) =
      if other = name then some v else field? other entries := by
  have hname : (text name).sameKey (text other) = decide (other = name) := by
    simp [sameKey, eq_comm]
  induction entries with
  | nil =>
    rw [insert, field?_cons, hname]
    simp
  | cons e rest ih =>
    obtain ⟨k, w⟩ := e
    unfold insert
    split
    · next hk =>
      obtain rfl := eq_of_sameKey_text hk
      rw [field?_cons, field?_cons, hname]
      by_cases hother : other = name <;> simp [hother]
    · next hk =>
      rw [field?_cons, field?_cons, ih]
      by_cases hother : other = name
      · subst hother
        rw [if_neg hk, if_pos rfl, if_pos rfl]
      · simp only [if_neg hother]

end Value

namespace Settings

open Value (field? entry? insert)

variable {v : Value} {n : Int} {s : Settings} {name entry : String} {entries : List (Value × Value)}

section Place

/-- The entries with this one in a section, whatever else the section has. -/
def withEntry (name entry : String) (v : Value) (entries : List (Value × Value)) :
    List (Value × Value) :=
  insert (.text name) (.map (insert (.text entry) v (within name entries))) entries

/-- Every section is a mapping, or counts as nothing. -/
def Sections (entries : List (Value × Value)) : Prop :=
  ∀ name ∈ sectionNames, ∀ v ∈ field? name entries, v.isEmpty = true ∨ ∃ inner, v = .map inner

theorem field?_withEntry (name entry other : String) (v : Value) (entries : List (Value × Value))
    (h : other ≠ name) : field? other (withEntry name entry v entries) = field? other entries := by
  rw [withEntry, Value.field?_insert, if_neg h]

/-- One entry of a section is another, and no other entry is. -/
theorem entry?_withEntry (name entry other label : String) (v : Value)
    (entries : List (Value × Value)) :
    entry? other label (withEntry name entry v entries) =
      if other = name ∧ label = entry then some v else entry? other label entries := by
  unfold entry? withEntry
  rw [Value.field?_insert]
  by_cases hname : other = name
  · subst hname
    rw [if_pos rfl]
    dsimp only
    rw [Value.field?_insert, field?_within]
    unfold entry?
    simp
  · simp [hname]

theorem Sections.withEntry (h : Sections entries) : Sections (withEntry name entry v entries) := by
  intro other hother w hw
  rw [Settings.withEntry, Value.field?_insert] at hw
  split at hw
  · obtain rfl := Option.some.inj hw
    exact .inr ⟨_, rfl⟩
  · exact h other hother w hw

theorem Sections.insert (h : Sections entries) (hname : name ∉ sectionNames) :
    Sections (insert (.text name) v entries) := by
  intro other hother w hw
  have hne : other ≠ name := fun heq => hname (heq ▸ hother)
  rw [Value.field?_insert, if_neg hne] at hw
  exact h other hother w hw

end Place

/-- What is stated for each setting, if anything is. -/
structure Given where
  seed : Option Value
  path : Option Value
  cyclesPerFrame : Option Value
  frameRate : Option Value
  maxFrames : Option Value
  keys : Option Value
  trace : Option Value

def given (entries : List (Value × Value)) : Given where
  seed := entry? "machine" "seed" entries
  path := entry? "program" "path" entries
  cyclesPerFrame := entry? "host" "cycles_per_frame" entries
  frameRate := entry? "host" "frame_rate" entries
  maxFrames := entry? "host" "max_frames" entries
  keys := field? "keys" entries
  trace := field? "trace" entries

namespace Given

variable {g : Given}

/-- The settings that are stated, each read by itself. -/
def settings (g : Given) : Except ConfigFault Settings := do
  let seed ← optionalInteger g.seed
  let path ← pathText g.path
  let cycles ← positive "host.cycles_per_frame" g.cyclesPerFrame 10
  let rate ← positive "host.frame_rate" g.frameRate 60
  let frames ← optionalInteger g.maxFrames
  let keys ← keyList g.keys
  let trace ← switch "trace" g.trace
  return ⟨seed, path, cycles, rate, frames, trace, keys⟩

/-- Each of the settings is read from what is stated for it. -/
structure Reads (g : Given) (s : Settings) : Prop where
  seed : optionalInteger g.seed = .ok s.seed
  path : pathText g.path = .ok s.path
  cyclesPerFrame : positive "host.cycles_per_frame" g.cyclesPerFrame 10 = .ok s.cyclesPerFrame
  frameRate : positive "host.frame_rate" g.frameRate 60 = .ok s.frameRate
  maxFrames : optionalInteger g.maxFrames = .ok s.maxFrames
  keys : keyList g.keys = .ok s.keys
  trace : switch "trace" g.trace = .ok s.trace

theorem reads_of_settings (h : g.settings = .ok s) : g.Reads s := by
  unfold settings at h
  obtain ⟨seed, hseed, h⟩ := except_bind_eq_ok.1 h
  obtain ⟨path, hpath, h⟩ := except_bind_eq_ok.1 h
  obtain ⟨cycles, hcycles, h⟩ := except_bind_eq_ok.1 h
  obtain ⟨rate, hrate, h⟩ := except_bind_eq_ok.1 h
  obtain ⟨frames, hframes, h⟩ := except_bind_eq_ok.1 h
  obtain ⟨keys, hkeys, h⟩ := except_bind_eq_ok.1 h
  obtain ⟨trace, htrace, h⟩ := except_bind_eq_ok.1 h
  obtain rfl := Except.ok.inj h
  exact ⟨hseed, hpath, hcycles, hrate, hframes, hkeys, htrace⟩

section Restated

variable (h : g.Reads s) (o : Option Value)

include h

theorem Reads.settings_seed : { g with seed := o }.settings =
    (optionalInteger o).map fun a => { s with seed := a } := by
  simp only [settings, h.path, h.cyclesPerFrame, h.frameRate, h.maxFrames, h.keys, h.trace]
  cases optionalInteger o <;> rfl

theorem Reads.settings_cyclesPerFrame : { g with cyclesPerFrame := o }.settings =
    (positive "host.cycles_per_frame" o 10).map fun a => { s with cyclesPerFrame := a } := by
  simp only [settings, h.seed, h.path, h.frameRate, h.maxFrames, h.keys, h.trace]
  cases positive "host.cycles_per_frame" o 10 <;> rfl

theorem Reads.settings_frameRate : { g with frameRate := o }.settings =
    (positive "host.frame_rate" o 60).map fun a => { s with frameRate := a } := by
  simp only [settings, h.seed, h.path, h.cyclesPerFrame, h.maxFrames, h.keys, h.trace]
  cases positive "host.frame_rate" o 60 <;> rfl

theorem Reads.settings_maxFrames : { g with maxFrames := o }.settings =
    (optionalInteger o).map fun a => { s with maxFrames := a } := by
  simp only [settings, h.seed, h.path, h.cyclesPerFrame, h.frameRate, h.keys, h.trace]
  cases optionalInteger o <;> rfl

theorem Reads.settings_keys : { g with keys := o }.settings =
    (keyList o).map fun a => { s with keys := a } := by
  simp only [settings, h.seed, h.path, h.cyclesPerFrame, h.frameRate, h.maxFrames, h.trace]
  cases keyList o <;> rfl

end Restated

end Given

/-- Where the sections are as they have to be, the settings are what is stated in them. -/
theorem ofEntries_eq (h : Sections entries) : ofEntries entries = (given entries).settings := by
  have hsection (name : String) (hname : name ∈ sectionNames) :
      sectionOf entries name = .ok (within name entries) := sectionOf_eq_ok.2 ⟨h name hname, rfl⟩
  unfold ofEntries
  simp only [hsection "machine" (by decide), hsection "program" (by decide),
    hsection "host" (by decide), except_ok_bind, field?_within]
  rfl

theorem ofValue_given {g : Given} (h : Sections entries) (hg : given entries = g) :
    ofValue (.map entries) = g.settings :=
  hg ▸ ofEntries_eq h

theorem accepted (h : ofValue (.map entries) = .ok s) :
    Sections entries ∧ (given entries).Reads s := by
  change ofEntries entries = .ok s at h
  have hsections : Sections entries := (ofEntries_isOk.1 ⟨s, h⟩).1.sections
  rw [ofEntries_eq hsections] at h
  exact ⟨hsections, Given.reads_of_settings h⟩

section Stated

theorem given_seed : given (withEntry "machine" "seed" v entries) =
    { given entries with seed := some v } := by
  simp [given, entry?_withEntry, field?_withEntry]

theorem given_cyclesPerFrame : given (withEntry "host" "cycles_per_frame" v entries) =
    { given entries with cyclesPerFrame := some v } := by
  simp [given, entry?_withEntry, field?_withEntry]

theorem given_frameRate : given (withEntry "host" "frame_rate" v entries) =
    { given entries with frameRate := some v } := by
  simp [given, entry?_withEntry, field?_withEntry]

theorem given_maxFrames : given (withEntry "host" "max_frames" v entries) =
    { given entries with maxFrames := some v } := by
  simp [given, entry?_withEntry, field?_withEntry]

theorem given_keys : given (insert (.text "keys") v entries) =
    { given entries with keys := some v } := by
  simp [given, entry?, Value.field?_insert]

end Stated

theorem keyList_set {items : List Value} {keys : List Int} {i : Nat}
    (h : keyList (some (.list items)) = .ok keys) (hi : i < items.length) :
    keyList (some (.list (items.set i v))) = (keyNumber v).map fun k => keys.set i k := by
  have hlist (items : List Value) (hitems : items ≠ []) :
      keyList (some (.list items)) = items.mapM keyNumber := by
    unfold keyList
    simp [Value.isEmpty, hitems]
  have hitems : items ≠ [] := List.ne_nil_of_length_pos (Nat.zero_lt_of_lt hi)
  have hset : items.set i v ≠ [] := by simpa using hitems
  rw [hlist items hitems] at h
  rw [hlist _ hset]
  exact mapM_set v h hi

section Accepted

variable (hs : ofValue (.map entries) = .ok s) (v : Value)

include hs

/-- Next to what is accepted only the setting that is restated is read anew. -/
theorem ofValue_seed : ofValue (.map (withEntry "machine" "seed" v entries)) =
    (optionalInteger (some v)).map fun a => { s with seed := a } := by
  obtain ⟨hsections, hreads⟩ := accepted hs
  rw [ofValue_given hsections.withEntry given_seed, hreads.settings_seed]

theorem ofValue_cyclesPerFrame : ofValue (.map (withEntry "host" "cycles_per_frame" v entries)) =
    (positive "host.cycles_per_frame" (some v) 10).map fun a => { s with cyclesPerFrame := a } := by
  obtain ⟨hsections, hreads⟩ := accepted hs
  rw [ofValue_given hsections.withEntry given_cyclesPerFrame, hreads.settings_cyclesPerFrame]

theorem ofValue_frameRate : ofValue (.map (withEntry "host" "frame_rate" v entries)) =
    (positive "host.frame_rate" (some v) 60).map fun a => { s with frameRate := a } := by
  obtain ⟨hsections, hreads⟩ := accepted hs
  rw [ofValue_given hsections.withEntry given_frameRate, hreads.settings_frameRate]

theorem ofValue_maxFrames : ofValue (.map (withEntry "host" "max_frames" v entries)) =
    (optionalInteger (some v)).map fun a => { s with maxFrames := a } := by
  obtain ⟨hsections, hreads⟩ := accepted hs
  rw [ofValue_given hsections.withEntry given_maxFrames, hreads.settings_maxFrames]

/-- One key in the place of another is read anew, and the others are as they were. -/
theorem ofValue_key {items : List Value} {i : Nat}
    (hitems : field? "keys" entries = some (.list items)) (hi : i < items.length) :
    ofValue (.map (insert (.text "keys") (.list (items.set i v)) entries)) =
      (keyNumber v).map fun k => { s with keys := s.keys.set i k } := by
  obtain ⟨hsections, hreads⟩ := accepted hs
  have hread : keyList (some (.list items)) = .ok s.keys := hitems ▸ hreads.keys
  rw [ofValue_given (hsections.insert (by decide)) given_keys, hreads.settings_keys,
    keyList_set hread hi]
  cases keyNumber v <;> rfl

end Accepted

section Read

variable (hv : v.StandsFor n) (hn : IntegerText.writable n = true)

include hv

theorem optionalInteger_some : optionalInteger (some v) = .ok (some n) := by
  have hread : (integer v).map some = .ok (some n) := by
    rw [integer_eq_ok.2 hv]
    rfl
  -- null, which leaves the entry out, stands for no integer
  cases hv with
  | int => exact hread
  | text => exact hread

theorem positive_some {usual : Int} (hpos : 0 < n) : positive name (some v) usual = .ok n := by
  rw [positive, Option.getD_some, integer_eq_ok.2 hv, except_ok_bind, if_pos hpos]
  rfl

include hn

theorem positive_refused {usual : Int} (hpos : n ≤ 0) :
    positive name (some v) usual = .error (.notPositive name (toString n)) := by
  rw [positive, Option.getD_some, integer_eq_ok.2 hv, except_ok_bind, if_neg (Int.not_lt.2 hpos),
    shown, Value.writable, if_pos hn]
  rfl

theorem keyNumber_refused (hkey : ¬ IsKey n) : keyNumber v = .error (.keyRange (toString n)) := by
  have hrange : ¬ (0 ≤ n ∧ n < 16) := hkey
  rw [keyNumber, integer_eq_ok.2 hv, except_ok_bind, if_neg hrange, shown, Value.writable, if_pos hn]
  rfl

end Read

/-- The configuration is refused as one, with this report. -/
def Refuses (v : Value) (f : ConfigFault) : Prop := ofValue v = .error f ∧ f.kind = .configuration

/-- An integer is the same setting in each of the ways to write it, and where it is out of range each
of them is refused. -/
theorem ofValue_writes (hn : (Nat.toDigits 10 n.natAbs).length ≤ IntegerText.maxDigits)
    (hv : v.Writes n) (hs : ofValue (.map entries) = .ok s) :
    ofValue (.map (withEntry "machine" "seed" v entries)) = .ok { s with seed := some n } ∧
    ofValue (.map (withEntry "host" "max_frames" v entries)) = .ok { s with maxFrames := some n } ∧
    (0 < n →
      ofValue (.map (withEntry "host" "cycles_per_frame" v entries)) =
        .ok { s with cyclesPerFrame := n } ∧
      ofValue (.map (withEntry "host" "frame_rate" v entries)) = .ok { s with frameRate := n }) ∧
    (n ≤ 0 →
      Refuses (.map (withEntry "host" "cycles_per_frame" v entries))
        (.notPositive "host.cycles_per_frame" (toString n)) ∧
      Refuses (.map (withEntry "host" "frame_rate" v entries))
        (.notPositive "host.frame_rate" (toString n))) ∧
    ∀ items i, field? "keys" entries = some (.list items) → i < items.length →
      (IsKey n → ofValue (.map (insert (.text "keys") (.list (items.set i v)) entries)) =
        .ok { s with keys := s.keys.set i n }) ∧
      (¬ IsKey n → Refuses (.map (insert (.text "keys") (.list (items.set i v)) entries))
        (.keyRange (toString n))) := by
  have hstands : v.StandsFor n := hv.standsFor hn
  have hwritable : IntegerText.writable n = true := IntegerText.writable_iff.2 hn
  refine ⟨?seed, ?maxFrames, ?positive, ?notPositive, ?keys⟩
  case seed =>
    rw [ofValue_seed hs, optionalInteger_some hstands]
    rfl
  case maxFrames =>
    rw [ofValue_maxFrames hs, optionalInteger_some hstands]
    rfl
  case positive =>
    intro hpos
    rw [ofValue_cyclesPerFrame hs, ofValue_frameRate hs, positive_some hstands hpos,
      positive_some hstands hpos]
    exact ⟨rfl, rfl⟩
  case notPositive =>
    intro hpos
    rw [Refuses, Refuses, ofValue_cyclesPerFrame hs, ofValue_frameRate hs,
      positive_refused hstands hwritable hpos, positive_refused hstands hwritable hpos]
    exact ⟨⟨rfl, rfl⟩, rfl, rfl⟩
  case keys =>
    intro items i hitems hi
    rw [Refuses, ofValue_key hs v hitems hi]
    constructor
    · intro hkey
      rw [keyNumber_eq_ok.2 ⟨hstands, hkey⟩]
      rfl
    · intro hkey
      rw [keyNumber_refused hstands hwritable hkey]
      exact ⟨rfl, rfl⟩

/-- Fifteen in capitals is a key, and a rate below zero is refused also as a text. -/
theorem ofValue_writes_capitals :
    ofValue (.map [(.text "keys", .list [.int 3, .text "0XF"])]) =
      .ok { standard with keys := [3, 15] } ∧
    Refuses (.map [(.text "host", .map [(.text "frame_rate", .text "-3")])])
      (.notPositive "host.frame_rate" "-3") := by
  have hspells : IntegerText.Spells 16 15 ['F'] := rfl
  have hfifteen : (Value.text "0XF").Writes 15 := .hex (.inr rfl) hspells
  have hminus : (Value.text "-3").Writes (-3) := .minus 3
  have hbase : ofValue (.map [(.text "keys", .list [.int 3, .int 3])]) =
      .ok { standard with keys := [3, 3] } := rfl
  have hnothing : ofValue (.map []) = .ok standard := rfl
  obtain ⟨-, -, -, -, hkeys⟩ := ofValue_writes (by decide) hfifteen hbase
  obtain ⟨-, -, -, hrefused, -⟩ := ofValue_writes (by decide) hminus hnothing
  have hrange : IsKey 15 := ⟨by decide, by decide⟩
  exact ⟨(hkeys _ 1 rfl (by decide)).1 hrange, (hrefused (by decide)).2⟩

end Settings

end SpriteVM
