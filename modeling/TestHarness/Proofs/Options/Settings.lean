import Mathlib.Data.List.Nodup
import TestHarness.Options.Decode

/-!
# Settings read in any order

A table writes a section by its settings: each of them once, in any order, and those that are left out
have their defaults. Whatever the order, and whatever is left out, reading the table into the defaults
gives the section (`Tells.readTable`). What makes it so is said of one field at a time (`Fits`): a field
reads what its setting writes, and it changes no other setting.

The options and their sections are instances, the options with the tables of the sections as values
(`Options.fits`).
-/

namespace TestHarness

/-! ## Settings -/

/-- **A setting of a section**: the `name` of its field, its content, and the values that write it. -/
structure Setting (σ : Type) where
  name : String
  Content : Type
  get : σ → Content
  writes : Content → Toml.Value → Prop

section

variable {σ : Type}

/-- **Entries that write a section**, in any order. A setting may be left out where it has its value in
    `default`. -/
structure Tells (settings : List (Setting σ)) (default s : σ) (entries : List (String × Toml.Value)) :
    Prop where
  distinct : (entries.map Prod.fst).Nodup
  told : ∀ e ∈ entries, ∃ x ∈ settings, x.name = e.1 ∧ x.writes (x.get s) e.2
  rest : ∀ x ∈ settings, x.name ∉ entries.map Prod.fst → x.get s = x.get default

/-- **Fields that read settings.** The `settings` make up the section; a field reads what its setting writes,
    whatever the section was before, and leaves all other settings as they are. -/
structure Fits (settings : List (Setting σ)) (fields : List (Field σ)) : Prop where
  names : (settings.map Setting.name).Nodup
  ext : ∀ s s', (∀ x ∈ settings, x.get s = x.get s') → s = s'
  reads : ∀ x ∈ settings, ∀ a v, x.writes a v → ∀ s, ∃ s', readEntry fields s (x.name, v) = .ok s' ∧
    x.get s' = a ∧ ∀ y ∈ settings, y.name ≠ x.name → y.get s' = y.get s

/-! ## Reading -/

variable {settings : List (Setting σ)} {fields : List (Field σ)} {default s : σ}
  {entries : List (String × Toml.Value)}

theorem Tells.perm (h : Tells settings default s entries) {entries' : List (String × Toml.Value)}
    (hperm : entries'.Perm entries) : Tells settings default s entries' where
  distinct := ((hperm.map Prod.fst).nodup_iff).mpr h.distinct
  told := fun e he => h.told e (hperm.mem_iff.mp he)
  rest := fun x hx hout => h.rest x hx fun hin => hout ((hperm.map Prod.fst).mem_iff.mpr hin)

/-- Reading entries with `readEntry`, one after the other, sets what they write and nothing else. -/
theorem Fits.foldlM (hfits : Fits settings fields) (hdistinct : (entries.map Prod.fst).Nodup)
    (htold : ∀ e ∈ entries, ∃ x ∈ settings, x.name = e.1 ∧ x.writes (x.get s) e.2) (s₀ : σ) :
    ∃ s₁, entries.foldlM (readEntry fields) s₀ = .ok s₁ ∧ ∀ x ∈ settings,
      (x.name ∈ entries.map Prod.fst → x.get s₁ = x.get s) ∧
      (x.name ∉ entries.map Prod.fst → x.get s₁ = x.get s₀) := by
  -- by induction on the entries, from any start, as each changes what the next one finds
  induction entries generalizing s₀ with
  | nil => exact ⟨s₀, rfl, fun x _ => ⟨fun h => absurd h List.not_mem_nil, fun _ => rfl⟩⟩
  | cons e entries ih =>
      rw [List.map_cons, List.nodup_cons] at hdistinct
      obtain ⟨x, hx, hname, hwrites⟩ := htold e List.mem_cons_self
      obtain ⟨s', hread, hget, hframe⟩ := hfits.reads x hx _ _ hwrites s₀
      obtain ⟨s₁, hreads, hs₁⟩ :=
        ih hdistinct.2 (fun e he => htold e (List.mem_cons_of_mem _ he)) s'
      have hread : readEntry fields s₀ e = .ok s' := by rw [← hread, hname]
      refine ⟨s₁, ?_, fun y hy => ?_⟩
      · rw [List.foldlM_cons, hread]
        exact hreads
      · rw [List.map_cons, List.mem_cons, ← hname]
        by_cases heq : y.name = x.name
        · -- the setting of this entry, which no later one writes again
          obtain rfl := List.inj_on_of_nodup_map hfits.names hy hx heq
          have hlater := (hs₁ y hy).2 (by rw [hname]; exact hdistinct.1)
          exact ⟨fun _ => hlater.trans hget, fun hout => absurd (Or.inl rfl) hout⟩
        · refine ⟨fun hin => (hs₁ y hy).1 (hin.resolve_left heq), fun hout => ?_⟩
          exact ((hs₁ y hy).2 fun hin => hout (Or.inr hin)).trans (hframe y hy heq)

/-- **A table in any order** is read by `readTable` as the section that it writes. -/
theorem Tells.readTable (h : Tells settings default s entries) (hfits : Fits settings fields) :
    readTable fields default entries = .ok s := by
  have hsorted : Tells settings default s (sortEntries entries) := h.perm (List.mergeSort_perm _ _)
  obtain ⟨s₁, hread, hs₁⟩ := hfits.foldlM hsorted.distinct hsorted.told default
  have hsame : s₁ = s := by
    refine hfits.ext _ _ fun x hx => ?_
    by_cases hin : x.name ∈ (sortEntries entries).map Prod.fst
    · exact (hs₁ x hx).1 hin
    · exact ((hs₁ x hx).2 hin).trans (hsorted.rest x hx hin).symm
  rw [TestHarness.readTable, hread, hsame]

/-- Entries that write one setting each tell a section: `Tells settings default s entries` for some `s`. -/
theorem Fits.exists_tells (hfits : Fits settings fields) (hdistinct : (entries.map Prod.fst).Nodup)
    (hwrites : ∀ e ∈ entries, ∃ x ∈ settings, x.name = e.1 ∧ ∃ a, x.writes a e.2) :
    ∃ s, Tells settings default s entries := by
  induction entries with
  | nil => exact ⟨default, List.nodup_nil, List.forall_mem_nil _, fun _ _ _ => rfl⟩
  | cons e entries ih =>
      obtain ⟨⟨x, hx, hname, a, ha⟩, hwrites⟩ := List.forall_mem_cons.mp hwrites
      obtain ⟨s, htells⟩ := ih (List.nodup_cons.mp hdistinct).2 hwrites
      obtain ⟨s', -, hget, hframe⟩ := hfits.reads x hx a e.2 ha s
      refine ⟨s', hdistinct, List.forall_mem_cons.mpr ⟨⟨x, hx, hname, hget ▸ ha⟩, ?_⟩, ?_⟩
      · intro e' he'
        obtain ⟨y, hy, hname', hy'⟩ := htells.told e' he'
        have hne : y.name ≠ x.name := by
          rw [hname', hname]
          intro heq
          exact (List.nodup_cons.mp hdistinct).1 (heq ▸ List.mem_map_of_mem he')
        exact ⟨y, hy, hname', hframe y hy hne ▸ hy'⟩
      · intro y hy hout
        rw [List.map_cons, List.mem_cons, not_or, ← hname] at hout
        rw [hframe y hy hout.1, htells.rest y hy hout.2]

/-- The value under a setting's name, `entries.lookup x.name`, writes it. -/
theorem Tells.writes (h : Tells settings default s entries) (hnames : (settings.map Setting.name).Nodup)
    {x : Setting σ} (hx : x ∈ settings) {v : Toml.Value} (hlookup : entries.lookup x.name = some v) :
    x.writes (x.get s) v := by
  obtain ⟨before, after, rfl, -⟩ := List.lookup_eq_some_iff.mp hlookup
  obtain ⟨y, hy, hname, hwrites⟩ := h.told (x.name, v) (List.mem_append_right _ List.mem_cons_self)
  obtain rfl := List.inj_on_of_nodup_map hnames hy hx hname
  exact hwrites

/-- A setting without a value, for which `lookup` is `none`, has its default. -/
theorem Tells.get_default (h : Tells settings default s entries) {x : Setting σ} (hx : x ∈ settings)
    (hlookup : entries.lookup x.name = none) : x.get s = x.get default := by
  refine h.rest x hx fun hin => ?_
  obtain ⟨e, he, hname⟩ := List.mem_map.mp hin
  have hne : x.name ≠ e.1 := bne_iff_ne.mp (List.lookup_eq_none_iff.mp hlookup e he)
  exact hne hname.symm

/-- **What a setting is**, by `entries.lookup x.name` alone. -/
theorem Tells.get_eq (h : Tells settings default s entries) (hnames : (settings.map Setting.name).Nodup)
    {x : Setting σ} (hx : x ∈ settings) (read : Toml.Value → Option x.Content)
    (hread : ∀ a v, x.writes a v → read v = some a) :
    x.get s = ((entries.lookup x.name).bind read).getD (x.get default) := by
  cases hlookup : entries.lookup x.name with
  | none => exact h.get_default hx hlookup
  | some v => rw [Option.bind_some, hread _ _ (h.writes hnames hx hlookup), Option.getD_some]

end

/-! ## Values -/

namespace ReadValue

/-- A number within its bound, `n ≤ max`, is read. -/
theorem unsigned_of_le (expected : String) {max n : Nat} (h : n ≤ max) :
    unsigned expected max (.integer n) = .ok n := by
  have hbound : (0 : Int) ≤ n ∧ (n : Int) ≤ max := ⟨Int.natCast_nonneg n, Int.ofNat_le.mpr h⟩
  rw [unsigned, if_pos hbound, Int.toNat_natCast]

theorem word64_toNat (expected : String) (n : UInt64) : word64 expected (.integer n.toNat) = .ok n := by
  have hbound : n.toNat ≤ Nat.pow 2 64 - 1 := Nat.le_sub_one_of_lt n.toNat_lt
  rw [word64, unsigned_of_le expected hbound, Except.map, UInt64.ofNat_toNat]

theorem word32_toNat (expected : String) (n : UInt32) : word32 expected (.integer n.toNat) = .ok n := by
  have hbound : n.toNat ≤ Nat.pow 2 32 - 1 := Nat.le_sub_one_of_lt n.toNat_lt
  rw [word32, unsigned_of_le expected hbound, Except.map, UInt32.ofNat_toNat]

end ReadValue

/-! ## The sections -/

/-- An entry of a field that replaces a part of the section, one of `Field.ofReader`. -/
theorem readEntry_ofReader {σ α : Type} {fields : List (Field σ)} {name : String} {reader : ReadValue α}
    {set : α → σ → σ} {v : Toml.Value} {a : α} {s : σ} {P : σ → Prop}
    (hfield : fields.find? (·.name == name) = some (.ofReader name reader set)) (hread : reader v = .ok a)
    (h : P (set a s)) : ∃ s', readEntry fields s (name, v) = .ok s' ∧ P s' := by
  refine ⟨set a s, ?_, h⟩
  simp only [readEntry, hfield, Field.ofReader, hread, Except.map]

namespace RunnerOptions

/-- The settings of `[runner]`. -/
def settings : List (Setting RunnerOptions) :=
  [⟨"timeout_secs", Option UInt64, timeoutSecs, fun a v => ∃ n, a = some n ∧ v = .integer n.toNat⟩,
   ⟨"kill_grace_ms", UInt64, killGraceMs, fun n v => v = .integer n.toNat⟩,
   ⟨"poll_interval_ms", UInt64, pollIntervalMs, fun n v => v = .integer n.toNat⟩]

theorem fits : Fits settings fields where
  names := by decide
  ext := by
    rintro ⟨_, _, _⟩ ⟨_, _, _⟩ h
    simpa [settings] using h
  reads := by
    simp only [settings, List.forall_mem_cons]
    refine ⟨?_, ?_, ?_, List.forall_mem_nil _⟩
    · rintro _ _ ⟨n, rfl, rfl⟩ s
      exact readEntry_ofReader rfl (ReadValue.word64_toNat _ n) ⟨rfl, by simp⟩
    · rintro n _ rfl s
      exact readEntry_ofReader rfl (ReadValue.word64_toNat _ n) ⟨rfl, by simp⟩
    · rintro n _ rfl s
      exact readEntry_ofReader rfl (ReadValue.word64_toNat _ n) ⟨rfl, by simp⟩

end RunnerOptions

namespace OutputOptions

/-- The settings of `[output]`. -/
def settings : List (Setting OutputOptions) :=
  [⟨"header_width", UInt64, headerWidth, fun n v => v = .integer n.toNat⟩]

theorem fits : Fits settings fields where
  names := by decide
  ext := by
    rintro ⟨_⟩ ⟨_⟩ h
    simpa [settings] using h
  reads := by
    simp only [settings, List.forall_mem_cons]
    refine ⟨?_, List.forall_mem_nil _⟩
    rintro n _ rfl s
    exact readEntry_ofReader rfl (ReadValue.word64_toNat _ n) ⟨rfl, by simp⟩

end OutputOptions

namespace TestOptions

/-- The settings of `[tests]`. -/
def settings : List (Setting TestOptions) :=
  [⟨"processors", UInt32, processors, fun n v => v = .integer n.toNat⟩,
   ⟨"output_dir", Option Path, outputDir, fun a v => ∃ text, a = some (.ofString text) ∧ v = .string text⟩]

theorem fits : Fits settings fields where
  names := by decide
  ext := by
    rintro ⟨_, _⟩ ⟨_, _⟩ h
    simpa [settings] using h
  reads := by
    simp only [settings, List.forall_mem_cons]
    refine ⟨?_, ?_, List.forall_mem_nil _⟩
    · rintro n _ rfl s
      exact readEntry_ofReader rfl (ReadValue.word32_toNat _ n) ⟨rfl, by simp⟩
    · rintro _ _ ⟨text, rfl, rfl⟩ s
      exact readEntry_ofReader rfl rfl ⟨rfl, by simp⟩

end TestOptions

namespace Options

/-- The settings of the options. A section is written by a table that `Tells` its settings. -/
def settings : List (Setting Options) :=
  [⟨"verbose", Bool, verbose, fun b v => v = .boolean b⟩,
   ⟨"runner", RunnerOptions, runner,
     fun s v => ∃ entries, v = .table entries ∧ Tells RunnerOptions.settings {} s entries⟩,
   ⟨"output", OutputOptions, output,
     fun s v => ∃ entries, v = .table entries ∧ Tells OutputOptions.settings {} s entries⟩,
   ⟨"tests", TestOptions, tests,
     fun s v => ∃ entries, v = .table entries ∧ Tells TestOptions.settings {} s entries⟩]

theorem fits : Fits settings fields where
  names := by decide
  ext := by
    rintro ⟨_, _, _, _⟩ ⟨_, _, _, _⟩ h
    simpa [settings] using h
  reads := by
    simp only [settings, List.forall_mem_cons]
    refine ⟨?_, ?_, ?_, ?_, List.forall_mem_nil _⟩
    · rintro b _ rfl o
      exact readEntry_ofReader rfl rfl ⟨rfl, by simp⟩
    · rintro s _ ⟨entries, rfl, htells⟩ o
      exact readEntry_ofReader rfl (htells.readTable RunnerOptions.fits) ⟨rfl, by simp⟩
    · rintro s _ ⟨entries, rfl, htells⟩ o
      exact readEntry_ofReader rfl (htells.readTable OutputOptions.fits) ⟨rfl, by simp⟩
    · rintro s _ ⟨entries, rfl, htells⟩ o
      exact readEntry_ofReader rfl (htells.readTable TestOptions.fits) ⟨rfl, by simp⟩

end Options

end TestHarness
