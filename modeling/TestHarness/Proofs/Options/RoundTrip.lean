import TestHarness.Proofs.Options.Settings
import TestHarness.Proofs.Toml.Plain

/-!
# Options written as TOML

Options are written as a plain document: `verbose` first, if at all, and then the sections with their
settings. The sections stand in any order, and so do the settings of each; what has its default may be left
out; blanks and empty lines stand freely, and the characters of a path are spelled in any way
(`Options.Written`). Every such text reads as the options that it writes, and there is one for all options
whose path is a text (`ofToml_written`).
-/

namespace TestHarness

open Toml (assigns tableStatements documentEntries)

namespace Options

/-- **Texts that write options**: `Written o text` allows any order, and leaves out any defaults. -/
def Written (o : Options) (text : String) : Prop :=
  ∃ top tables, Toml.Laid (assigns top ++ tableStatements tables) text.toList ∧
    Tells settings {} o (documentEntries top tables)

end Options

/-! ## Entries -/

section

variable {σ : Type} {settings : List (Setting σ)} {default s : σ} {entries : List (String × Toml.Value)}

/-- An entry that stands on one line: a bare key and a `Toml.Written` value. -/
def IsPlain (e : String × Toml.Value) : Prop := Toml.IsBare e.1 ∧ ∃ cs, Toml.Written e.2 cs

/-- Settings whose entries stand on one line each, `IsPlain`. -/
def ArePlain (settings : List (Setting σ)) : Prop :=
  ∀ x ∈ settings, ∀ a v, x.writes a v → IsPlain (x.name, v)

/-- A section is told by some entries if what has no writing is left at its `default`. -/
theorem exists_tells (hnames : (settings.map Setting.name).Nodup)
    (h : ∀ x ∈ settings, (∃ v, x.writes (x.get s) v) ∨ x.get s = x.get default) :
    ∃ entries, Tells settings default s entries := by
  induction settings with
  | nil => exact ⟨[], List.nodup_nil, List.forall_mem_nil _, List.forall_mem_nil _⟩
  | cons x settings ih =>
      rw [List.map_cons, List.nodup_cons] at hnames
      obtain ⟨entries, htells⟩ := ih hnames.2 fun y hy => h y (List.mem_cons_of_mem _ hy)
      have htold : ∀ e ∈ entries, ∃ y ∈ x :: settings, y.name = e.1 ∧ y.writes (y.get s) e.2 := by
        intro e he
        obtain ⟨y, hy, hwrites⟩ := htells.told e he
        exact ⟨y, List.mem_cons_of_mem _ hy, hwrites⟩
      rcases h x List.mem_cons_self with ⟨v, hwrites⟩ | hdefault
      · -- the other entries have the names of the other settings
        have hfresh : x.name ∉ entries.map Prod.fst := by
          intro hin
          obtain ⟨e, he, hname⟩ := List.mem_map.mp hin
          obtain ⟨y, hy, hy', _⟩ := htells.told e he
          exact hnames.1 (List.mem_map.mpr ⟨y, hy, hy'.trans hname⟩)
        refine ⟨(x.name, v) :: entries, List.nodup_cons.mpr ⟨hfresh, htells.distinct⟩, ?_, ?_⟩
        · exact List.forall_mem_cons.mpr ⟨⟨x, List.mem_cons_self, rfl, hwrites⟩, htold⟩
        · intro y hy hout
          rcases List.mem_cons.mp hy with rfl | hy
          · exact absurd List.mem_cons_self hout
          · exact htells.rest y hy fun hin => hout (List.mem_cons_of_mem _ hin)
      · exact ⟨entries, htells.distinct, htold, List.forall_mem_cons.mpr ⟨fun _ => hdefault, htells.rest⟩⟩

theorem Tells.isPlain (h : Tells settings default s entries) (hplain : ArePlain settings) :
    ∀ e ∈ entries, IsPlain e := by
  intro e he
  obtain ⟨x, hx, hname, hwrites⟩ := h.told e he
  have h := hplain x hx _ _ hwrites
  rwa [hname] at h

end

/-! ## Sections -/

theorem isPlain_integer {key : String} (h : Toml.IsBare key) (n : Nat) : IsPlain (key, .integer n) :=
  ⟨h, _, .integer n⟩

theorem isPlain_boolean {key : String} (h : Toml.IsBare key) (b : Bool) : IsPlain (key, .boolean b) :=
  ⟨h, _, .boolean b⟩

theorem isPlain_string {key : String} (h : Toml.IsBare key) (text : String) : IsPlain (key, .string text) :=
  ⟨h, _, .string (Toml.Quoted.spelledText_encode _)⟩

namespace RunnerOptions

theorem arePlain : ArePlain settings := by
  simp only [ArePlain, settings, List.forall_mem_cons]
  refine ⟨?_, ?_, ?_, List.forall_mem_nil _⟩
  · rintro _ _ ⟨n, rfl, rfl⟩
    exact isPlain_integer ⟨by decide, by decide⟩ n.toNat
  · rintro n _ rfl
    exact isPlain_integer ⟨by decide, by decide⟩ n.toNat
  · rintro n _ rfl
    exact isPlain_integer ⟨by decide, by decide⟩ n.toNat

theorem exists_tells (s : RunnerOptions) : ∃ entries, Tells settings {} s entries := by
  refine TestHarness.exists_tells fits.names ?_
  simp only [settings, List.forall_mem_cons]
  refine ⟨?_, .inl ⟨_, rfl⟩, .inl ⟨_, rfl⟩, List.forall_mem_nil _⟩
  cases s.timeoutSecs with
  | none => exact .inr rfl
  | some n => exact .inl ⟨_, n, rfl, rfl⟩

end RunnerOptions

namespace OutputOptions

theorem arePlain : ArePlain settings := by
  simp only [ArePlain, settings, List.forall_mem_cons]
  refine ⟨?_, List.forall_mem_nil _⟩
  rintro n _ rfl
  exact isPlain_integer ⟨by decide, by decide⟩ n.toNat

theorem exists_tells (s : OutputOptions) : ∃ entries, Tells settings {} s entries := by
  refine TestHarness.exists_tells fits.names ?_
  simp only [settings, List.forall_mem_cons]
  exact ⟨.inl ⟨_, rfl⟩, List.forall_mem_nil _⟩

end OutputOptions

namespace TestOptions

theorem arePlain : ArePlain settings := by
  simp only [ArePlain, settings, List.forall_mem_cons]
  refine ⟨?_, ?_, List.forall_mem_nil _⟩
  · rintro n _ rfl
    exact isPlain_integer ⟨by decide, by decide⟩ n.toNat
  · rintro _ _ ⟨text, rfl, rfl⟩
    exact isPlain_string ⟨by decide, by decide⟩ text

/-- A directory can be written if it is a text, `Path.ofString text`. -/
theorem exists_tells (s : TestOptions) (hdir : ∀ p ∈ s.outputDir, ∃ text, p = Path.ofString text) :
    ∃ entries, Tells settings {} s entries := by
  refine TestHarness.exists_tells fits.names ?_
  simp only [settings, List.forall_mem_cons]
  refine ⟨.inl ⟨_, rfl⟩, ?_, List.forall_mem_nil _⟩
  cases hpath : s.outputDir with
  | none => exact .inr rfl
  | some p =>
      obtain ⟨text, rfl⟩ := hdir p hpath
      exact .inl ⟨_, text, rfl, rfl⟩

end TestOptions

namespace Options

/-- A table that writes a setting is a section whose entries are `IsPlain`, no two of one key. -/
theorem writes_table {x : Setting Options} (hx : x ∈ settings) {a : x.Content}
    {entries : List (String × Toml.Value)} (h : x.writes a (.table entries)) :
    Toml.IsBare x.name ∧ (entries.map Prod.fst).Nodup ∧ ∀ e ∈ entries, IsPlain e := by
  simp only [settings, List.mem_cons, List.not_mem_nil, or_false] at hx
  rcases hx with rfl | rfl | rfl | rfl
  · cases h
  · obtain ⟨_, heq, htells⟩ := h
    cases heq
    exact ⟨⟨by decide, by decide⟩, htells.distinct, htells.isPlain RunnerOptions.arePlain⟩
  · obtain ⟨_, heq, htells⟩ := h
    cases heq
    exact ⟨⟨by decide, by decide⟩, htells.distinct, htells.isPlain OutputOptions.arePlain⟩
  · obtain ⟨_, heq, htells⟩ := h
    cases heq
    exact ⟨⟨by decide, by decide⟩, htells.distinct, htells.isPlain TestOptions.arePlain⟩

variable {o : Options} {top : List (String × Toml.Value)}
  {tables : List (String × List (String × Toml.Value))}

/-- The sections of entries that tell options are tables of `IsPlain` entries, with bare names. -/
theorem tells_table (h : Tells settings {} o (documentEntries top tables)) :
    ∀ t ∈ tables, Toml.IsBare t.1 ∧ (t.2.map Prod.fst).Nodup ∧ ∀ e ∈ t.2, IsPlain e := by
  intro t ht
  have he : (t.1, Toml.Value.table t.2) ∈ documentEntries top tables :=
    List.mem_append_right _ (List.mem_map.mpr ⟨t, ht, rfl⟩)
  obtain ⟨x, hx, hname, hwrites⟩ := h.told _ he
  have h := writes_table hx hwrites
  rwa [hname] at h

/-! ## Reading -/

/-- **A text that writes options** holds entries that tell them, `Tells settings {} o entries`. -/
theorem Written.ofText? {text : String} (h : Written o text) :
    ∃ entries, Toml.ofText? text = some entries ∧ Tells settings {} o entries := by
  obtain ⟨top, tables, htext, htells⟩ := h
  have hnames : (top.map Prod.fst ++ tables.map Prod.fst).Nodup := by
    have h := htells.distinct
    rwa [documentEntries, List.map_append, List.map_map] at h
  exact ⟨_, Toml.ofText?_plain htext hnames fun t ht => (tells_table htells t ht).2.1, htells⟩

/-- Valid options are what `ofEntries` makes of entries that tell them. -/
theorem ofEntries_tells {entries : List (String × Toml.Value)} (h : Tells settings {} o entries)
    (hvalid : o.validate = .ok ()) : ofEntries entries = .ok o := by
  rw [ofEntries, h.readTable fits]
  simp only [hvalid]

/-! ## Writing -/

/-- **Every order and every choice of what is left out** can be `Laid` out as a text. -/
theorem exists_text (h : Tells settings {} o (documentEntries top tables)) (htop : ∀ e ∈ top, IsPlain e) :
    ∃ text : String, Toml.Laid (assigns top ++ tableStatements tables) text.toList := by
  -- nothing but single lines is needed, without any blanks
  have hassigns : ∀ {entries : List (String × Toml.Value)}, (∀ e ∈ entries, IsPlain e) →
      ∀ s ∈ assigns entries, ∃ cs, Toml.WrittenStatement s cs := by
    intro entries hentries s hs
    obtain ⟨_, ha, rfl⟩ := List.mem_map.mp hs
    obtain ⟨e, he, rfl⟩ := List.mem_map.mp ha
    obtain ⟨hkey, cs, hcs⟩ := hentries e he
    exact ⟨_, .assign hkey Toml.Blank.nil Toml.Blank.nil hcs⟩
  have hlaid : ∃ cs, Toml.Laid (assigns top ++ tableStatements tables) cs := by
    refine Toml.exists_laid fun s hs => ?_
    rcases List.mem_append.mp hs with hs | hs
    · exact hassigns htop s hs
    · obtain ⟨t, ht, hs⟩ := List.mem_flatMap.mp hs
      obtain ⟨hname, _, hentries⟩ := tells_table h t ht
      rcases List.mem_cons.mp hs with rfl | hs
      · exact ⟨_, .header hname Toml.Blank.nil Toml.Blank.nil⟩
      · exact hassigns hentries s hs
  obtain ⟨cs, hcs⟩ := hlaid
  exact ⟨String.ofList cs, by rwa [String.toList_ofList]⟩

/-- Sections that are told make up options that are, with `documentEntries` of all three. -/
theorem tells_sections {runner output tests : List (String × Toml.Value)}
    (hrunner : Tells RunnerOptions.settings {} o.runner runner)
    (houtput : Tells OutputOptions.settings {} o.output output)
    (htests : Tells TestOptions.settings {} o.tests tests) :
    Tells settings {} o (documentEntries [("verbose", .boolean o.verbose)]
      [("runner", runner), ("output", output), ("tests", tests)]) where
  distinct := (by decide : ["verbose", "runner", "output", "tests"].Nodup)
  told := by
    simp only [documentEntries, List.map_cons, List.map_nil, List.singleton_append, List.forall_mem_cons]
    refine ⟨⟨_, .head _, rfl, rfl⟩, ⟨_, .tail _ (.head _), rfl, runner, rfl, hrunner⟩,
      ⟨_, .tail _ (.tail _ (.head _)), rfl, output, rfl, houtput⟩,
      ⟨_, .tail _ (.tail _ (.tail _ (.head _))), rfl, tests, rfl, htests⟩, List.forall_mem_nil _⟩
  rest := by simp [settings, documentEntries]

/-- Options whose path is a text can be written: some text is `Written o`. -/
theorem exists_written (o : Options) (hdir : ∀ p ∈ o.tests.outputDir, ∃ text, p = Path.ofString text) :
    ∃ text, Written o text := by
  obtain ⟨runner, hrunner⟩ := o.runner.exists_tells
  obtain ⟨output, houtput⟩ := o.output.exists_tells
  obtain ⟨tests, htests⟩ := o.tests.exists_tells hdir
  have htells := tells_sections hrunner houtput htests
  have htop : ∀ e ∈ [("verbose", Toml.Value.boolean o.verbose)], IsPlain e :=
    List.forall_mem_singleton.mpr (isPlain_boolean ⟨by decide, by decide⟩ o.verbose)
  obtain ⟨text, htext⟩ := exists_text htells htop
  exact ⟨text, _, _, htext, htells⟩

/-- **Options survive being written and read**: there is a text that writes them, and every text that
does, in whatever order and with whatever defaults left out, reads as exactly these options. -/
theorem ofToml_written (o : Options) (hvalid : o.validate = .ok ())
    (hdir : ∀ p ∈ o.tests.outputDir, ∃ text, p = Path.ofString text) :
    (∃ text, Written o text) ∧ ∀ text, Written o text → ofToml text = .ok o := by
  refine ⟨exists_written o hdir, fun text htext => ?_⟩
  obtain ⟨entries, hread, htells⟩ := htext.ofText?
  rw [ofToml, hread]
  exact ofEntries_tells htells hvalid

/-- Sections the other way round, a number beyond 63 bits and a path with quotes in it. -/
theorem ofToml_written_reversed :
    ofToml "[tests]\noutput_dir = \"a\\\"b\"\n[runner]\ntimeout_secs = 18446744073709551615\n"
      = .ok { runner := { timeoutSecs := some 18446744073709551615 }
              tests := { outputDir := some (.ofString "a\"b") } } := by
  let o : Options :=
    { runner := { timeoutSecs := some 18446744073709551615 }
      tests := { outputDir := some (.ofString "a\"b") } }
  let text := "[tests]\noutput_dir = \"a\\\"b\"\n[runner]\ntimeout_secs = 18446744073709551615\n"
  have hvalid : o.validate = .ok () := rfl
  have hdir : ∀ p ∈ o.tests.outputDir, ∃ text, p = Path.ofString text := by
    rintro p hp
    exact ⟨"a\"b", (Option.some.inj hp).symm⟩
  have hrunner : Tells RunnerOptions.settings {} o.runner [("timeout_secs", .integer 18446744073709551615)] :=
    ⟨List.nodup_singleton _, List.forall_mem_singleton.mpr ⟨_, .head _, rfl, _, rfl, rfl⟩,
      by simp [RunnerOptions.settings, o]⟩
  have htests : Tells TestOptions.settings {} o.tests [("output_dir", .string "a\"b")] :=
    ⟨List.nodup_singleton _, List.forall_mem_singleton.mpr ⟨_, .tail _ (.head _), rfl, _, rfl, rfl⟩,
      by simp [TestOptions.settings, o]⟩
  have htells : Tells settings {} o (documentEntries []
      [("tests", [("output_dir", .string "a\"b")]),
        ("runner", [("timeout_secs", .integer 18446744073709551615)])]) := by
    refine ⟨(by decide : ["tests", "runner"].Nodup), ?_, by simp [settings, documentEntries, o]⟩
    simp only [documentEntries, List.map_cons, List.map_nil, List.nil_append, List.forall_mem_cons]
    exact ⟨⟨_, .tail _ (.tail _ (.tail _ (.head _))), rfl, _, rfl, htests⟩,
      ⟨_, .tail _ (.head _), rfl, _, rfl, hrunner⟩, List.forall_mem_nil _⟩
  have hblank : Toml.Blank [' '] := List.forall_mem_singleton.mpr rfl
  have hlines : Toml.Laid [.header ["tests"], .assign ["output_dir"] (.string "a\"b"),
      .header ["runner"], .assign ["timeout_secs"] (.integer 18446744073709551615)] _ :=
    .cons .nil (.header ⟨by decide, by decide⟩ .nil .nil) (.lineFeed _) <|
    .cons .nil (.assign ⟨by decide, by decide⟩ hblank hblank
      (.string (Toml.Quoted.spelledText_encode _))) (.lineFeed _) <|
    .cons .nil (.header ⟨by decide, by decide⟩ .nil .nil) (.lineFeed _) <|
    .cons .nil (.assign ⟨by decide, by decide⟩ hblank hblank (.integer _)) (.lineFeed _) (.nil .nil)
  have hlaid : Toml.Laid _ text.toList := cast (congrArg (Toml.Laid _) (by decide +zetaReduce)) hlines
  have hwritten : Written o text := by
    refine ⟨_, _, ?_, htells⟩
    exact hlaid
  exact (ofToml_written o hvalid hdir).2 text hwritten

end Options

end TestHarness
