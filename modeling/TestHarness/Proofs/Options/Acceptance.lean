import TestHarness.Proofs.Options.Settings
import TestHarness.Proofs.Options.Shape

/-!
# Which options are accepted

A document is accepted when its entries have the shape of the options and no setting is given as zero that must
not be (`shape`, `isZero`). The options are then what the entries give: each setting is read off the value under
its own name, and is the default where there is none (`given`). Otherwise the answer is the fault of the first
key that offends against the shape, and if none does, the first of the settings that are zero
(`acceptance_exact`).
-/

namespace TestHarness

open Toml (Value)

/-! ## What may be given -/

namespace RunnerOptions

/-- What the section `[runner]` may hold, in the order of its settings. -/
def parts : List (String × Shape) :=
  [("timeout_secs", .number "u64" (2 ^ 64 - 1)),
   ("kill_grace_ms", .number "u64" (2 ^ 64 - 1)),
   ("poll_interval_ms", .number "u64" (2 ^ 64 - 1))]

end RunnerOptions

namespace OutputOptions

/-- What the section `[output]` may hold. -/
def parts : List (String × Shape) := [("header_width", .number "usize" (2 ^ 64 - 1))]

end OutputOptions

namespace TestOptions

/-- What the section `[tests]` may hold, in the order of its settings. -/
def parts : List (String × Shape) :=
  [("processors", .number "u32" (2 ^ 32 - 1)),
   ("output_dir", .path)]

end TestOptions

namespace Options

/-- What the options may hold: `verbose`, and the three sections as records. -/
def parts : List (String × Shape) :=
  [("verbose", .truth),
   ("runner", .record "RunnerOptions" RunnerOptions.parts),
   ("output", .record "OutputOptions" OutputOptions.parts),
   ("tests", .record "TestOptions" TestOptions.parts)]

/-- **The shape of the options**, the record of all their `parts`. -/
def shape : Shape := .record "HarnessOptions" parts

end Options

/-! ## What is given -/

namespace Toml.Value

/-- The truth value, if it is a `.boolean`. -/
def truth? : Value → Option Bool
  | .boolean b => some b
  | _ => none

/-- The word of 64 bits, if the value is an `.integer`. -/
def word64? : Value → Option UInt64
  | .integer n => some (UInt64.ofNat n.toNat)
  | _ => none

/-- The word of 32 bits, if the value is an `.integer`. -/
def word32? : Value → Option UInt32
  | .integer n => some (UInt32.ofNat n.toNat)
  | _ => none

/-- The path that a `.string` names. -/
def path? : Value → Option Path
  | .string text => some (.ofString text)
  | _ => none

/-- Whether the value is the number zero, `.integer 0`. -/
def isZero : Value → Bool
  | .integer n => n == 0
  | _ => false

/-- The entries of a `.table`. -/
def entries? : Value → Option (List (String × Value))
  | .table entries => some entries
  | _ => none

end Toml.Value

/-- The entries of a section; a section that is missing has none, `[]`. -/
def sectionEntries (entries : List (String × Value)) (name : String) : List (String × Value) :=
  ((entries.lookup name).bind Value.entries?).getD []

/-- The settings that entries give to `[runner]`, each by `lookup` of its own name. -/
def RunnerOptions.given (entries : List (String × Value)) : RunnerOptions where
  timeoutSecs := (entries.lookup "timeout_secs").bind Value.word64?
  killGraceMs := ((entries.lookup "kill_grace_ms").bind Value.word64?).getD 2000
  pollIntervalMs := ((entries.lookup "poll_interval_ms").bind Value.word64?).getD 10

/-- The settings that entries give to `[output]`, by `lookup` of its one name. -/
def OutputOptions.given (entries : List (String × Value)) : OutputOptions where
  headerWidth := ((entries.lookup "header_width").bind Value.word64?).getD 80

/-- The settings that entries give to `[tests]`, each by `lookup` of its own name. -/
def TestOptions.given (entries : List (String × Value)) : TestOptions where
  processors := ((entries.lookup "processors").bind Value.word32?).getD 1
  outputDir := (entries.lookup "output_dir").bind Value.path?

/-- **The options that entries give.** Each setting has the value under its own name, or its default, and a
    section is `given` by its `sectionEntries`. -/
def Options.given (entries : List (String × Value)) : Options where
  verbose := ((entries.lookup "verbose").bind Value.truth?).getD false
  runner := .given (sectionEntries entries "runner")
  output := .given (sectionEntries entries "output")
  tests := .given (sectionEntries entries "tests")

/-! ## What must not be zero -/

namespace InvalidSetting

/-- The section of the setting, and its name there: `key` is the two with a dot between them. -/
def place : InvalidSetting → String × String
  | pollInterval => ("runner", "poll_interval_ms")
  | timeout => ("runner", "timeout_secs")
  | headerWidth => ("output", "header_width")
  | processors => ("tests", "processors")

theorem key_eq (s : InvalidSetting) : s.key = s.place.1 ++ "." ++ s.place.2 := by
  cases s <;> rfl

/-- The settings that must not be zero, in the order in which `invalidSetting?` looks at them. -/
def checked : List InvalidSetting := [pollInterval, timeout, headerWidth, processors]

end InvalidSetting

/-- Whether a setting is given as zero, at its `place` in the entries. -/
def isZero (entries : List (String × Value)) (s : InvalidSetting) : Bool :=
  ((sectionEntries entries s.place.1).lookup s.place.2).any Value.isZero

/-! ## Reading by shape -/

theorem Shape.decides_word64 (type : String) (v : Value) :
    (Shape.number type (2 ^ 64 - 1)).Decides v (ReadValue.word64 type v) :=
  (Shape.decides_unsigned type _ v).map UInt64.ofNat

theorem Shape.decides_word32 (type : String) (v : Value) :
    (Shape.number type (2 ^ 32 - 1)).Decides v (ReadValue.word32 type v) :=
  (Shape.decides_unsigned type _ v).map UInt32.ofNat

open Shape

theorem RunnerOptions.decided : List.Forall₂ Decided fields parts :=
  .cons (decided_ofReader fun v _ _ => decides_word64 _ v) <|
  .cons (decided_ofReader fun v _ _ => decides_word64 _ v) <|
  .cons (decided_ofReader fun v _ _ => decides_word64 _ v) .nil

theorem OutputOptions.decided : List.Forall₂ Decided fields parts :=
  .cons (decided_ofReader fun v _ _ => decides_word64 _ v) .nil

theorem TestOptions.decided : List.Forall₂ Decided fields parts :=
  .cons (decided_ofReader fun v _ _ => decides_word32 _ v) <|
  .cons (decided_ofReader fun v _ _ => decides_path v) .nil

theorem Options.decided : List.Forall₂ Decided fields parts :=
  .cons (decided_ofReader fun v _ _ => decides_boolean v) <|
  .cons (decided_ofReader fun _ => decides_readSection RunnerOptions.decided rfl {}) <|
  .cons (decided_ofReader fun _ => decides_readSection OutputOptions.decided rfl {}) <|
  .cons (decided_ofReader fun _ => decides_readSection TestOptions.decided rfl {}) .nil

/-! ## What is read -/

section

variable {σ : Type} {settings : List (Setting σ)} {fields : List (Field σ)} {default s : σ}
  {entries : List (String × Value)} {title : String} {parts : List (String × Shape)}

/-- **`Setting.Takes`**: the setting has the name of the part, and the values that the part's shape `Admits`
    write it. -/
structure Setting.Takes (x : Setting σ) (part : String × Shape) : Prop where
  name : x.name = part.1
  writes : ∀ v, v.Distinct → part.2.Admits v → ∃ a, x.writes a v

theorem exists_takes (h : List.Forall₂ Setting.Takes settings parts) {key : String} {shape : Shape}
    (hlookup : parts.lookup key = some shape) : ∃ x ∈ settings, x.Takes (key, shape) := by
  induction h with
  | nil => cases hlookup
  | @cons x part settings parts hx _ ih =>
      rw [List.lookup_cons] at hlookup
      by_cases heq : key = part.1
      · subst heq
        rw [beq_self_eq_true] at hlookup
        exact ⟨x, List.mem_cons_self, Option.some.inj hlookup ▸ hx⟩
      · rw [beq_eq_false_iff_ne.mpr heq] at hlookup
        obtain ⟨y, hy, htakes⟩ := ih hlookup
        exact ⟨y, List.mem_cons_of_mem _ hy, htakes⟩

/-- **A table of the shape** `Tells` a section. -/
theorem Fits.tells_of_admits (hfits : Fits settings fields) (htakes : List.Forall₂ Setting.Takes settings parts)
    (hdistinct : (Value.table entries).Distinct) (hadmits : (record title parts).Admits (.table entries)) :
    ∃ s, Tells settings default s entries := by
  cases hdistinct with
  | table hkeys hvalues =>
      cases hadmits with
      | table hknown hinner =>
          refine hfits.exists_tells hkeys fun e he => ?_
          obtain ⟨shape, hlookup⟩ := Option.ne_none_iff_exists'.mp (hknown e he)
          obtain ⟨x, hx, hname, hwrites⟩ := exists_takes htakes hlookup
          exact ⟨x, hx, hname, hwrites e.2 (hvalues e he) (hinner e he shape hlookup)⟩

/-- Whether a setting is zero shows in the value under its name, `entries.lookup x.name`, unless zero is the
    default. -/
theorem Tells.any_isZero (h : Tells settings default s entries) (hnames : (settings.map Setting.name).Nodup)
    {x : Setting σ} (hx : x ∈ settings) (zero : x.Content → Bool)
    (hwrites : ∀ a v, x.writes a v → v.isZero = zero a) (hdefault : zero (x.get default) = false) :
    (entries.lookup x.name).any Value.isZero = zero (x.get s) := by
  cases hlookup : entries.lookup x.name with
  | none => rw [h.get_default hx hlookup, hdefault, Option.any_none]
  | some v => rw [Option.any_some, hwrites _ _ (h.writes hnames hx hlookup)]

/-- The entries of a section, `sectionEntries`, tell it. -/
theorem Tells.section {τ : Type} {inner : List (Setting τ)} {d : τ} {name : String} {get : σ → τ}
    (h : Tells settings default s entries) (hnames : (settings.map Setting.name).Nodup)
    (hx : ⟨name, τ, get, fun a v => ∃ entries, v = .table entries ∧ Tells inner d a entries⟩ ∈ settings)
    (hdefault : get default = d) : Tells inner d (get s) (sectionEntries entries name) := by
  rw [sectionEntries]
  cases hlookup : entries.lookup name with
  | none =>
      have hget : get s = d := (h.get_default hx hlookup).trans hdefault
      rw [hget]
      exact ⟨List.nodup_nil, List.forall_mem_nil _, fun _ _ _ => rfl⟩
  | some v =>
      obtain ⟨inner, rfl, htells⟩ := h.writes hnames hx hlookup
      exact htells

end

/-! ### Words -/

theorem exists_word64 {type : String} {v : Value} (h : (number type (2 ^ 64 - 1)).Admits v) :
    ∃ n : UInt64, v = .integer n.toNat := by
  cases h with
  | @number _ _ n hlow hhigh =>
      have hlt : n.toNat < 2 ^ 64 := by omega
      refine ⟨UInt64.ofNat n.toNat, ?_⟩
      rw [UInt64.toNat_ofNat_of_lt' hlt, Int.toNat_of_nonneg hlow]

theorem exists_word32 {type : String} {v : Value} (h : (number type (2 ^ 32 - 1)).Admits v) :
    ∃ n : UInt32, v = .integer n.toNat := by
  cases h with
  | @number _ _ n hlow hhigh =>
      have hlt : n.toNat < 2 ^ 32 := by omega
      refine ⟨UInt32.ofNat n.toNat, ?_⟩
      rw [UInt32.toNat_ofNat_of_lt' hlt, Int.toNat_of_nonneg hlow]

theorem word64?_toNat (n : UInt64) : Value.word64? (.integer n.toNat) = some n := by
  rw [Value.word64?, Int.toNat_natCast, UInt64.ofNat_toNat]

theorem word32?_toNat (n : UInt32) : Value.word32? (.integer n.toNat) = some n := by
  rw [Value.word32?, Int.toNat_natCast, UInt32.ofNat_toNat]

theorem isZero_word64 (n : UInt64) : Value.isZero (.integer n.toNat) = (n == 0) := by
  have hiff : ((n.toNat : Int) = 0) ↔ n = 0 := by
    rw [Int.natCast_eq_zero, ← UInt64.toNat_inj]
    rfl
  exact decide_eq_decide.mpr hiff

theorem isZero_word32 (n : UInt32) : Value.isZero (.integer n.toNat) = (n == 0) := by
  have hiff : ((n.toNat : Int) = 0) ↔ n = 0 := by
    rw [Int.natCast_eq_zero, ← UInt32.toNat_inj]
    rfl
  exact decide_eq_decide.mpr hiff

/-- A setting that may be missing, with `none` as its default. -/
theorem getD_bind_map_some {α β : Type} (o : Option α) (f : α → Option β) :
    (o.bind fun a => (f a).map some).getD none = o.bind f := by
  cases o with
  | none => rfl
  | some a => cases h : f a <;> simp [h]

/-! ### The sections -/

namespace RunnerOptions

theorem takes : List.Forall₂ Setting.Takes settings parts := by
  refine .cons ⟨rfl, fun v _ h => ?_⟩ (.cons ⟨rfl, fun v _ h => ?_⟩ (.cons ⟨rfl, fun v _ h => ?_⟩ .nil))
  · obtain ⟨n, rfl⟩ := exists_word64 h
    exact ⟨some n, n, rfl, rfl⟩
  · exact exists_word64 h
  · exact exists_word64 h

theorem eq_given {s : RunnerOptions} {entries : List (String × Value)} (h : Tells settings {} s entries) :
    s = given entries := by
  have htimeout : s.timeoutSecs = (entries.lookup "timeout_secs").bind Value.word64? := by
    refine (h.get_eq fits.names (.head _) (fun v => v.word64?.map some) ?_).trans (getD_bind_map_some _ _)
    rintro _ _ ⟨n, rfl, rfl⟩
    rw [word64?_toNat, Option.map_some]
  have hgrace : s.killGraceMs = ((entries.lookup "kill_grace_ms").bind Value.word64?).getD 2000 :=
    h.get_eq fits.names (.tail _ (.head _)) Value.word64? (by rintro n _ rfl; exact word64?_toNat n)
  have hpoll : s.pollIntervalMs = ((entries.lookup "poll_interval_ms").bind Value.word64?).getD 10 :=
    h.get_eq fits.names (.tail _ (.tail _ (.head _))) Value.word64? (by rintro n _ rfl; exact word64?_toNat n)
  rw [given, ← htimeout, ← hgrace, ← hpoll]

end RunnerOptions

namespace OutputOptions

theorem takes : List.Forall₂ Setting.Takes settings parts :=
  .cons ⟨rfl, fun _ _ h => exists_word64 h⟩ .nil

theorem eq_given {s : OutputOptions} {entries : List (String × Value)} (h : Tells settings {} s entries) :
    s = given entries := by
  have hwidth : s.headerWidth = ((entries.lookup "header_width").bind Value.word64?).getD 80 :=
    h.get_eq fits.names (.head _) Value.word64? (by rintro n _ rfl; exact word64?_toNat n)
  rw [given, ← hwidth]

end OutputOptions

namespace TestOptions

theorem takes : List.Forall₂ Setting.Takes settings parts := by
  refine .cons ⟨rfl, fun v _ h => exists_word32 h⟩ (.cons ⟨rfl, fun v _ h => ?_⟩ .nil)
  cases h with
  | path text => exact ⟨some (.ofString text), text, rfl, rfl⟩

theorem eq_given {s : TestOptions} {entries : List (String × Value)} (h : Tells settings {} s entries) :
    s = given entries := by
  have hprocessors : s.processors = ((entries.lookup "processors").bind Value.word32?).getD 1 :=
    h.get_eq fits.names (.head _) Value.word32? (by rintro n _ rfl; exact word32?_toNat n)
  have hdir : s.outputDir = (entries.lookup "output_dir").bind Value.path? := by
    refine (h.get_eq fits.names (.tail _ (.head _)) (fun v => v.path?.map some) ?_).trans (getD_bind_map_some _ _)
    rintro _ _ ⟨text, rfl, rfl⟩
    rfl
  rw [given, ← hprocessors, ← hdir]

end TestOptions

/-! ### The options -/

namespace Options

/-- A table that a section's shape `Admits` writes the section. -/
theorem writes_of_admits {σ : Type} {settings : List (Setting σ)} {fields : List (Field σ)} {default : σ}
    {title : String} {parts : List (String × Shape)} (hfits : Fits settings fields)
    (htakes : List.Forall₂ Setting.Takes settings parts) (v : Value) (hdistinct : v.Distinct)
    (h : (record title parts).Admits v) : ∃ s entries, v = .table entries ∧ Tells settings default s entries := by
  have hadmits := h
  cases h with
  | table _ _ =>
      obtain ⟨s, htells⟩ := hfits.tells_of_admits htakes hdistinct hadmits
      exact ⟨s, _, rfl, htells⟩

theorem takes : List.Forall₂ Setting.Takes settings parts := by
  refine .cons ⟨rfl, fun v _ h => ?_⟩ <|
    .cons ⟨rfl, writes_of_admits RunnerOptions.fits RunnerOptions.takes⟩ <|
    .cons ⟨rfl, writes_of_admits OutputOptions.fits OutputOptions.takes⟩ <|
    .cons ⟨rfl, writes_of_admits TestOptions.fits TestOptions.takes⟩ .nil
  cases h with
  | truth b => exact ⟨b, rfl⟩

variable {o : Options} {entries : List (String × Value)}

/-- The entries of the section `[runner]` tell it; those of the other two do as well. -/
theorem tells_runner (h : Tells settings {} o entries) :
    Tells RunnerOptions.settings {} o.runner (sectionEntries entries "runner") :=
  h.section fits.names (.tail _ (.head _)) rfl

theorem tells_output (h : Tells settings {} o entries) :
    Tells OutputOptions.settings {} o.output (sectionEntries entries "output") :=
  h.section fits.names (.tail _ (.tail _ (.head _))) rfl

theorem tells_tests (h : Tells settings {} o entries) :
    Tells TestOptions.settings {} o.tests (sectionEntries entries "tests") :=
  h.section fits.names (.tail _ (.tail _ (.tail _ (.head _)))) rfl

/-- **Options that are told are the given ones**, `given entries`. -/
theorem eq_given (h : Tells settings {} o entries) : o = given entries := by
  have hverbose : o.verbose = ((entries.lookup "verbose").bind Value.truth?).getD false :=
    h.get_eq fits.names (.head _) Value.truth? (by rintro b _ rfl; rfl)
  rw [given, ← hverbose, ← RunnerOptions.eq_given (tells_runner h), ← OutputOptions.eq_given (tells_output h),
    ← TestOptions.eq_given (tells_tests h)]

/-- Which settings are zero shows in the entries, by `isZero`. -/
theorem isZero_eq (h : Tells settings {} o entries) :
    isZero entries .pollInterval = (o.runner.pollIntervalMs == 0) ∧
    isZero entries .timeout = (o.runner.timeoutSecs == some 0) ∧
    isZero entries .headerWidth = (o.output.headerWidth == 0) ∧
    isZero entries .processors = (o.tests.processors == 0) := by
  refine ⟨?_, ?_, ?_, ?_⟩
  · refine (tells_runner h).any_isZero RunnerOptions.fits.names (.tail _ (.tail _ (.head _))) (· == 0) ?_ rfl
    rintro n _ rfl
    exact isZero_word64 n
  · refine (tells_runner h).any_isZero RunnerOptions.fits.names (.head _) (· == some 0) ?_ rfl
    rintro _ _ ⟨n, rfl, rfl⟩
    exact isZero_word64 n
  · refine (tells_output h).any_isZero OutputOptions.fits.names (.head _) (· == 0) ?_ rfl
    rintro n _ rfl
    exact isZero_word64 n
  · refine (tells_tests h).any_isZero TestOptions.fits.names (.head _) (· == 0) ?_ rfl
    rintro n _ rfl
    exact isZero_word32 n

/-- **The setting that is complained about**, `invalidSetting?`, is the first of those `checked` that is given
    as zero. -/
theorem invalidSetting?_eq (h : Tells settings {} o entries) :
    o.invalidSetting? = InvalidSetting.checked.find? (isZero entries) := by
  obtain ⟨hpoll, htimeout, hwidth, hprocessors⟩ := isZero_eq h
  rw [invalidSetting?, InvalidSetting.checked]
  by_cases hp : o.runner.pollIntervalMs = 0
  · simp [hpoll, hp]
  by_cases ht : o.runner.timeoutSecs = some 0
  · simp [hpoll, htimeout, hp, ht]
  by_cases hw : o.output.headerWidth = 0
  · simp [hpoll, htimeout, hwidth, hp, ht, hw]
  by_cases hn : o.tests.processors = 0
  · simp [hpoll, htimeout, hwidth, hprocessors, hp, ht, hw, hn]
  · simp [hpoll, htimeout, hwidth, hprocessors, hp, ht, hw, hn]

/-- All settings that can be complained about are `checked`, so none is found exactly if none is given as
    zero. -/
theorem find?_isZero_eq_none : InvalidSetting.checked.find? (isZero entries) = none ↔ ∀ s, isZero entries s = false := by
  have hall : ∀ s, s ∈ InvalidSetting.checked := by
    intro s
    cases s <;> decide
  rw [List.find?_eq_none]
  constructor
  · intro h s
    exact Bool.eq_false_of_not_eq_true (h s (hall s))
  · intro h s _
    rw [h s]
    exact Bool.false_ne_true

/-- **Three outcomes** of `ofEntries`. Entries of the right shape give options, or are complained about
    because of a setting that is zero; others have the first key that offends as their fault. -/
theorem ofEntries_cases (hdistinct : (Value.table entries).Distinct) (hitems : ¬ shape.ByItems (.table entries)) :
    (shape.Admits (.table entries) ∧ InvalidSetting.checked.find? (isZero entries) = none ∧
      ofEntries entries = .ok (given entries)) ∨
    (∃ s, shape.Admits (.table entries) ∧ InvalidSetting.checked.find? (isZero entries) = some s ∧
      ofEntries entries = .error (.setting s)) ∨
    ∃ path fault, shape.First (.table entries) path fault ∧ ofEntries entries = .error (.field fault) := by
  rw [ofEntries]
  obtain ⟨hadmits, -⟩ | ⟨path, fault, hfirst, hread⟩ := decides_readTable Options.decided hdistinct hitems {}
  · obtain ⟨o, htells⟩ := fits.tells_of_admits takes hdistinct hadmits
    rw [htells.readTable fits, ← invalidSetting?_eq htells, ← eq_given htells]
    cases hsetting : o.invalidSetting? with
    | none =>
        refine .inl ⟨hadmits, rfl, ?_⟩
        simp only [validate, hsetting]
    | some s =>
        refine .inr (.inl ⟨s, hadmits, rfl, ?_⟩)
        simp only [validate, hsetting]
  · refine .inr (.inr ⟨path, fault, hfirst, ?_⟩)
    simp only [hread]

/-- Entries whose sections are not arrays do not give the options `ByItems`. -/
theorem not_byItems (h : ∀ name ∈ ["runner", "output", "tests"], ∀ items, (name, .array items) ∉ entries) :
    ¬ shape.ByItems (.table entries) := by
  intro hitems
  cases hitems with
  | @inside _ _ _ e part he hlookup hinner =>
      have hpart : (e.1, part) ∈ parts := mem_of_lookup hlookup
      have hname : ∀ {name title inner}, e.1 = name → name ∈ ["runner", "output", "tests"] →
          (∀ p ∈ inner, ∀ v, ¬ p.2.ByItems v) → ¬ (record title inner).ByItems e.2 := by
        intro name title inner hkey hname hleaves hsection
        obtain ⟨items, hitems⟩ := hsection.eq_array hleaves
        exact h name hname items (hkey ▸ hitems ▸ he)
      simp only [parts, List.mem_cons, List.not_mem_nil, or_false, Prod.mk.injEq] at hpart
      obtain ⟨-, rfl⟩ | ⟨hkey, rfl⟩ | ⟨hkey, rfl⟩ | ⟨hkey, rfl⟩ := hpart
      · cases hinner
      · exact hname hkey (by decide) (by simp [RunnerOptions.parts, not_byItems_number]) hinner
      · exact hname hkey (by decide) (by simp [OutputOptions.parts, not_byItems_number]) hinner
      · exact hname hkey (by decide) (by simp [TestOptions.parts, not_byItems_number, not_byItems_path]) hinner

/-- **Exactly which documents are accepted** by `ofToml`, whose sections are not arrays, and what they give.
    Options come out if and only if `shape` admits the entries and no setting that must not be zero is given
    as zero; each setting then is the given one or its default. If a key offends, the fault of the `First` one
    comes out; and if none does, what comes out otherwise is the complaint about the first of those `checked`
    that is given as zero. -/
theorem acceptance_exact {text : String} {entries : List (String × Value)}
    (hparse : Toml.ofText? text = some entries)
    (hsections : ∀ name ∈ ["runner", "output", "tests"], ∀ items, (name, .array items) ∉ entries) :
    (∀ o, ofToml text = .ok o ↔ shape.Admits (.table entries) ∧
      (∀ s, isZero entries s = false) ∧ o = given entries) ∧
    (∀ fault, ofToml text = .error (.field fault) ↔ ∃ path, shape.First (.table entries) path fault) ∧
    (∀ s, ofToml text = .error (.setting s) ↔ shape.Admits (.table entries) ∧
      InvalidSetting.checked.find? (isZero entries) = some s) ∧
    (shape.Admits (.table entries) ↔ ∀ path fault, ¬ shape.Offends (.table entries) path fault) ∧
    ((∃ path fault, shape.Offends (.table entries) path fault) →
      ∃ path fault, shape.First (.table entries) path fault) := by
  have hdistinct := Toml.ofText?_distinct hparse
  have hread : ofToml text = ofEntries entries := by rw [ofToml, hparse]
  rw [hread, ← find?_isZero_eq_none]
  obtain ⟨hadmits, hnone, heq⟩ | ⟨setting, hadmits, hsome, heq⟩ | ⟨path, fault, hfirst, heq⟩ :=
    ofEntries_cases hdistinct (not_byItems hsections)
  · -- options
    rw [heq]
    refine ⟨fun o => ?_, fun fault => ?_, fun s => ?_, ⟨fun _ _ _ => hadmits.not_offends, fun _ => hadmits⟩,
      fun ⟨_, _, hoff⟩ => absurd hoff hadmits.not_offends⟩
    · exact ⟨fun h => ⟨hadmits, hnone, (Except.ok.inj h).symm⟩, fun h => congrArg _ h.2.2.symm⟩
    · exact ⟨nofun, fun ⟨_, hfirst⟩ => absurd hfirst.offends hadmits.not_offends⟩
    · rw [hnone]
      exact ⟨nofun, nofun⟩
  · -- a complaint about a setting
    rw [heq]
    refine ⟨fun o => ?_, fun fault => ?_, fun s => ?_, ⟨fun _ _ _ => hadmits.not_offends, fun _ => hadmits⟩,
      fun ⟨_, _, hoff⟩ => absurd hoff hadmits.not_offends⟩
    · rw [hsome]
      exact ⟨nofun, nofun⟩
    · exact ⟨nofun, fun ⟨_, hfirst⟩ => absurd hfirst.offends hadmits.not_offends⟩
    · rw [hsome, Except.error.injEq, ConfigFault.setting.injEq, Option.some_inj]
      exact ⟨fun h => ⟨hadmits, h⟩, fun h => h.2⟩
  · -- the fault of a field
    have hnot : ¬ shape.Admits (.table entries) := fun h => h.not_offends hfirst.offends
    rw [heq]
    refine ⟨fun o => ?_, fun fault' => ?_, fun s => ?_, ?_, fun _ => ⟨path, fault, hfirst⟩⟩
    · exact ⟨nofun, fun h => absurd h.1 hnot⟩
    · rw [Except.error.injEq, ConfigFault.field.injEq]
      exact ⟨fun h => ⟨path, h ▸ hfirst⟩, fun ⟨_, hfirst'⟩ => hfirst.unique hfirst' hdistinct⟩
    · exact ⟨nofun, fun h => absurd h.1 hnot⟩
    · exact ⟨fun h => absurd h hnot, fun h => absurd hfirst.offends (h path fault)⟩

/-- Keys at fault in two sections: the one in `output` comes first, though it stands later in the text. -/
theorem acceptance_of_two_faults :
    let text := "[tests]\nspeed=1\n[output]\nheader_width=18446744073709551616\n"
    let width : String × Value := ("header_width", .integer 18446744073709551616)
    let entries : List (String × Value) := [("tests", .table [("speed", .integer 1)]), ("output", .table [width])]
    Toml.ofText? text = some entries ∧
    (∀ name ∈ ["runner", "output", "tests"], ∀ items, (name, .array items) ∉ entries) ∧
    ofToml text = .error (.field (.wrongType (.integer 18446744073709551616) "usize")) := by
  intro text width entries
  have hlines : Toml.Laid [.header ["tests"], .assign ["speed"] (.integer 1),
      .header ["output"], .assign ["header_width"] width.2] _ :=
    .cons .nil (.header ⟨by decide, by decide⟩ .nil .nil) (.lineFeed _) <|
    .cons .nil (.assign ⟨by decide, by decide⟩ .nil .nil (.integer 1)) (.lineFeed _) <|
    .cons .nil (.header ⟨by decide, by decide⟩ .nil .nil) (.lineFeed _) <|
    .cons .nil (.assign ⟨by decide, by decide⟩ .nil .nil (.integer 18446744073709551616)) (.lineFeed _) (.nil .nil)
  have hlaid : Toml.Laid _ text.toList := cast (congrArg (Toml.Laid _) (by decide +zetaReduce)) hlines
  have hparse : Toml.ofText? text = some entries := by
    have hread : Toml.ofText? text = some (Toml.documentEntries []
        [("tests", [("speed", .integer 1)]), ("output", [width])]) :=
      Toml.ofText?_plain hlaid (by decide) (by simp)
    exact hread
  have hsections : ∀ name ∈ ["runner", "output", "tests"], ∀ items, (name, .array items) ∉ entries := by
    simp [entries]
  have hnumber : (number "usize" (2 ^ 64 - 1)).First width.2 []
      (.wrongType (.integer 18446744073709551616) "usize") :=
    .whole (.width (by decide) (by decide))
  have houtput : shape.First (.table [("output", .table [width])]) ["output", "header_width"] _ :=
    .inside rfl (.inside rfl hnumber)
  have hlt : "output" < "tests" := by decide
  have hleast : ∀ e' ∈ entries, e' = ("output", .table [width]) ∨ "output" < e'.1 :=
    List.forall_mem_cons.mpr ⟨.inr hlt, List.forall_mem_singleton.mpr (.inl rfl)⟩
  have hfirst : shape.First (.table entries) ["output", "header_width"] _ :=
    houtput.of_least_key (.tail _ (.head _)) hleast
  exact ⟨hparse, hsections, ((acceptance_exact hparse hsections).2.1 _).mpr ⟨_, hfirst⟩⟩

end Options

end TestHarness
