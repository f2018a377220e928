import Mathlib.Data.List.Perm.Basic
import TestHarness.Job.StatusJson
import TestHarness.Proofs.Json.Value

/-!
# Statuses read from JSON

A status is read from a text exactly if the text writes a value that holds it (`Status.HeldBy`): an object with the
two members of a status, among any other members and in any order, or an array of the two values. Whatever else the
object has does not matter, but it has to be well-formed; and nothing may follow but blanks (`Status.reading_exact`).

What a status is written as holds it, so every status reads back (`Status.toJson_read_back`).
-/

namespace TestHarness

open Json (Written Gap)

/-! ## Kinds -/

namespace StatusKind

/-- **`WrittenAs`** — how a kind is written: as its `name`, or as an object whose only member has that name
    and is null. -/
inductive WrittenAs (k : StatusKind) : Json → Prop where
  | name : WrittenAs k (.string (some k.name))
  | member : WrittenAs k (.object [(some k.name, .null)])

theorem ofName?_name (k : StatusKind) : ofName? k.name = some k := by
  cases k <;> decide

theorem ofName?_eq_some_iff {text : String} {k : StatusKind} : ofName? text = some k ↔ text = k.name := by
  constructor
  · intro h
    have hname : (k.name == text) = true := List.find?_some (p := fun k : StatusKind => k.name == text) h
    exact (beq_iff_eq.mp hname).symm
  · rintro rfl
    exact ofName?_name k

theorem ofJson?_eq_some_iff {v : Json} {k : StatusKind} : ofJson? v = some k ↔ k.WrittenAs v := by
  constructor
  · intro h
    rw [ofJson?.eq_def] at h
    split at h
    · exact ofName?_eq_some_iff.mp h ▸ .name
    · exact ofName?_eq_some_iff.mp h ▸ .member
    · cases h
  · rintro (_ | _)
    · exact ofName?_name k
    · exact ofName?_name k

end StatusKind

/-! ## Members -/

namespace Json

variable {key : String} {v : Json} {m : Option String × Json} {members members' : List (Option String × Json)}

/-- A member of another name than those of a status, `kind` and `message`. -/
def IsForeign (m : Option String × Json) : Prop := ∃ key, m.1 = some key ∧ key ≠ "kind" ∧ key ≠ "message"

theorem membersNamed_cons_self : membersNamed key ((some key, v) :: members) = v :: membersNamed key members := by
  simp [membersNamed]

theorem membersNamed_cons_of_ne (h : m.1 ≠ some key) :
    membersNamed key (m :: members) = membersNamed key members := by
  simp [membersNamed, h]

theorem membersNamed_eq_nil (h : ∀ m ∈ members, m.1 ≠ some key) : membersNamed key members = [] := by
  simpa [membersNamed] using h

theorem membersNamed_of_foreign (h : ∀ m ∈ members, IsForeign m) (hkey : key ∈ ["kind", "message"]) :
    membersNamed key members = [] := by
  apply membersNamed_eq_nil
  intro m hm heq
  obtain ⟨key', hkey', hneKind, hneMessage⟩ := h m hm
  obtain rfl : key = key' := Option.some.inj (heq.symm.trans hkey')
  rcases List.mem_cons.mp hkey with hkind | hmessage
  · exact hneKind hkind
  · exact hneMessage (List.mem_singleton.mp hmessage)

theorem membersNamed_perm (h : members.Perm members') (key : String) :
    (membersNamed key members).Perm (membersNamed key members') :=
  (h.filter _).map _

theorem length_membersNamed (key : String) (members : List (Option String × Json)) :
    (membersNamed key members).length = (members.map Prod.fst).count (some key) := by
  rw [membersNamed, List.length_map, ← List.countP_eq_length_filter, List.count, List.countP_map]
  exact List.countP_congr fun m _ => by simp

/-- The only member of a name, `membersNamed key members = [v]`, may as well come first. -/
theorem perm_of_membersNamed (h : membersNamed key members = [v]) :
    members.Perm ((some key, v) :: members.filter fun m => !decide (m.1 = some key)) := by
  obtain ⟨m, hfilter, rfl⟩ := List.map_eq_singleton_iff.mp h
  have hm : m ∈ members.filter fun m => decide (m.1 = some key) := hfilter ▸ List.mem_singleton_self m
  have hkey : m.1 = some key := of_decide_eq_true (List.mem_filter.mp hm).2
  have hperm := (List.filter_append_perm (fun m => decide (m.1 = some key)) members).symm
  rw [hfilter, List.singleton_append] at hperm
  have hm : m = (some key, m.2) := by rw [← hkey]
  rwa [hm] at hperm

end Json

/-! ## Values -/

namespace Status

variable {s : Status} {v kind message : Json} {members others : List (Option String × Json)}

/-- **`HeldBy`** — what a status is held by: an object with its two members, each of them once, or an array of
    the two. -/
inductive HeldBy (s : Status) : Json → Prop where
  | object {kind : Json} {members others : List (Option String × Json)} (hkind : s.kind.WrittenAs kind)
      (hothers : ∀ m ∈ others, Json.IsForeign m)
      (hperm : members.Perm ((some "kind", kind) :: (some "message", .string (some s.message)) :: others)) :
      HeldBy s (.object members)
  | array {kind : Json} (hkind : s.kind.WrittenAs kind) : HeldBy s (.array [kind, .string (some s.message)])

theorem ofParts?_eq_some_iff :
    ofParts? kind message = some s ↔ s.kind.WrittenAs kind ∧ message = .string (some s.message) := by
  have htext : ∀ {text}, message.text? = some text ↔ message = .string (some text) := by
    intro text
    cases message with
    | string text' => simp [Json.text?]
    | _ => simp [Json.text?]
  simp only [ofParts?, Option.bind_eq_bind, Option.bind_eq_some_iff, StatusKind.ofJson?_eq_some_iff, htext]
  constructor
  · rintro ⟨k, hkind, text, hmessage, heq⟩
    cases heq
    exact ⟨hkind, hmessage⟩
  · rintro ⟨hkind, hmessage⟩
    exact ⟨s.kind, hkind, s.message, hmessage, rfl⟩

/-- The parts that an object is read from: its only `kind` and its only `message`. -/
theorem ofJson?_object_eq_some_iff : ofJson? (.object members) = some s ↔
    (∀ m ∈ members, m.1.isSome = true) ∧ ∃ kind message, Json.membersNamed "kind" members = [kind] ∧
      Json.membersNamed "message" members = [message] ∧ ofParts? kind message = some s := by
  rw [ofJson?]
  constructor
  · intro h
    split at h
    · next hkeys =>
        split at h
        · next kind message hkind hmessage =>
            exact ⟨List.all_eq_true.mp hkeys, kind, message, hkind, hmessage, h⟩
        · cases h
    · cases h
  · rintro ⟨hkeys, kind, message, hkind, hmessage, hparts⟩
    rw [if_pos (List.all_eq_true.mpr hkeys), hkind, hmessage]
    exact hparts

theorem HeldBy.ofJson? (h : s.HeldBy v) : Status.ofJson? v = some s := by
  cases h with
  | array hkind => exact ofParts?_eq_some_iff.mpr ⟨hkind, rfl⟩
  | @object kind members others hkind hothers hperm =>
      -- the foreign members have keys that are texts, too
      have hkeys : ∀ m ∈ members, m.1.isSome = true := by
        intro m hm
        rcases List.mem_cons.mp (hperm.mem_iff.mp hm) with rfl | hm
        · rfl
        rcases List.mem_cons.mp hm with rfl | hm
        · rfl
        obtain ⟨key, hkey, -⟩ := hothers m hm
        rw [hkey]
        rfl
      refine ofJson?_object_eq_some_iff.mpr ⟨hkeys, kind, .string (some s.message), ?_, ?_,
        ofParts?_eq_some_iff.mpr ⟨hkind, rfl⟩⟩
      · have hnamed := Json.membersNamed_perm hperm "kind"
        rw [Json.membersNamed_cons_self, Json.membersNamed_cons_of_ne (by simp),
          Json.membersNamed_of_foreign hothers (by decide)] at hnamed
        exact List.perm_singleton.mp hnamed
      · have hnamed := Json.membersNamed_perm hperm "message"
        rw [Json.membersNamed_cons_of_ne (by simp), Json.membersNamed_cons_self,
          Json.membersNamed_of_foreign hothers (by decide)] at hnamed
        exact List.perm_singleton.mp hnamed

theorem heldBy_of_ofJson? (h : Status.ofJson? v = some s) : s.HeldBy v := by
  cases v with
  | object members =>
      obtain ⟨hkeys, kind, message, hkind, hmessage, hparts⟩ := ofJson?_object_eq_some_iff.mp h
      obtain ⟨hwritten, rfl⟩ := ofParts?_eq_some_iff.mp hparts
      -- both keys stand once, so the members are these two in some order and the foreign ones
      have hfirst := Json.perm_of_membersNamed hkind
      have hmessage' : Json.membersNamed "message" (members.filter fun m => !decide (m.1 = some "kind"))
          = [.string (some s.message)] := by
        have hnamed := Json.membersNamed_perm hfirst "message"
        rw [hmessage, Json.membersNamed_cons_of_ne (by simp)] at hnamed
        exact (List.singleton_perm.mp hnamed).symm
      refine .object hwritten (fun m hm => ?_) (hfirst.trans ((Json.perm_of_membersNamed hmessage').cons _))
      obtain ⟨hm, hne'⟩ := List.mem_filter.mp hm
      obtain ⟨hm, hne⟩ := List.mem_filter.mp hm
      obtain ⟨key, hkey⟩ := Option.isSome_iff_exists.mp (hkeys m hm)
      rw [hkey] at hne hne'
      exact ⟨key, hkey, by simpa using hne, by simpa using hne'⟩
  | array items =>
      rcases items with _ | ⟨kind, _ | ⟨message, _ | _⟩⟩
      · cases h
      · cases h
      · obtain ⟨hwritten, rfl⟩ := ofParts?_eq_some_iff.mp h
        exact .array hwritten
      · cases h
  | _ => cases h

/-- **A value is read as the status that it holds**: `ofJson? v = some s` says the same as `s.HeldBy v`. -/
theorem ofJson?_eq_some_iff : Status.ofJson? v = some s ↔ s.HeldBy v := ⟨heldBy_of_ofJson?, HeldBy.ofJson?⟩

/-- An object without one of the two members, or with one of them twice (`count` is not `1`), holds no
    status. -/
theorem ofJson?_object_of_count {key : String} (hkey : key ∈ ["kind", "message"])
    (hcount : (members.map Prod.fst).count (some key) ≠ 1) : Status.ofJson? (.object members) = none := by
  refine Option.eq_none_iff_forall_ne_some.mpr fun s h => hcount ?_
  obtain ⟨-, kind, message, hkind, hmessage, -⟩ := ofJson?_object_eq_some_iff.mp h
  rw [← Json.length_membersNamed]
  rcases List.mem_cons.mp hkey with rfl | hkey
  · rw [hkind]
    rfl
  · rw [List.mem_singleton.mp hkey, hmessage]
    rfl

theorem ofJson?_array_of_length {items : List Json} (h : items.length ≠ 2) :
    Status.ofJson? (.array items) = none := by
  rcases items with _ | ⟨kind, _ | ⟨message, _ | _⟩⟩
  · rfl
  · rfl
  · exact absurd rfl h
  · rfl

/-! ## Texts -/

theorem ofJsonText?_of_written {text : String} (h : Written v text) : ofJsonText? text = Status.ofJson? v := by
  rw [ofJsonText?, Json.ofText?_eq_some_iff.mpr h, Option.bind_some]

/-- **What a status is read from.** A text is read as a status exactly if it writes a value that holds it
    (`HeldBy`). So an object with the two members of a status is read as this status, whatever other members
    it has, in whichever order the members come, in either way to write the kind and with any blanks between
    the tokens; and so is the array of the two values. An object without one of the two members or with one of
    them twice is refused, and so is an array of another length, and every array or object with more than
    blanks behind it. Every value, however deep, can be written. -/
theorem reading_exact :
    (∀ (text : String) (s : Status), ofJsonText? text = some s ↔ ∃ v, s.HeldBy v ∧ Written v text) ∧
    (∀ (s : Status) (kind : Json), s.kind.WrittenAs kind →
      (∀ (members others : List (Option String × Json)) (text : String), (∀ m ∈ others, Json.IsForeign m) →
        members.Perm ((some "kind", kind) :: (some "message", .string (some s.message)) :: others) →
        Written (.object members) text → ofJsonText? text = some s) ∧
      (∀ text : String, Written (.array [kind, .string (some s.message)]) text → ofJsonText? text = some s)) ∧
    (∀ (members : List (Option String × Json)) (text : String), Written (.object members) text →
      ∀ key ∈ ["kind", "message"], (members.map Prod.fst).count (some key) ≠ 1 → ofJsonText? text = none) ∧
    (∀ (items : List Json) (text : String), Written (.array items) text → items.length ≠ 2 →
      ofJsonText? text = none) ∧
    (∀ (v : Json) (text extra : String), v.IsComposite → Written v text → ¬ Gap extra.toList →
      ofJsonText? (text ++ extra) = none) ∧
    (∀ v : Json, ∃ text, Written v text) := by
  refine ⟨fun text s => ?_, fun s kind hkind => ⟨?_, ?_⟩, ?_, ?_, ?_, Json.exists_written⟩
  · simp only [ofJsonText?, Option.bind_eq_some_iff, Json.ofText?_eq_some_iff, ofJson?_eq_some_iff, and_comm]
  · intro members others text hothers hperm hwritten
    rw [ofJsonText?_of_written hwritten]
    exact (HeldBy.object hkind hothers hperm).ofJson?
  · intro text hwritten
    rw [ofJsonText?_of_written hwritten]
    exact (HeldBy.array hkind).ofJson?
  · intro members text hwritten key hkey hcount
    rw [ofJsonText?_of_written hwritten, ofJson?_object_of_count hkey hcount]
  · intro items text hwritten hlength
    rw [ofJsonText?_of_written hwritten, ofJson?_array_of_length hlength]
  · intro v text extra hcomposite hwritten hextra
    rw [ofJsonText?, hwritten.ofText?_append hcomposite hextra, Option.bind_none]

/-- A status between blanks, behind another member `a` and with its members the other way round; the same text
    with the letter `x` behind it; an object with two kinds; an array with an item too many. -/
theorem reading_exact_of_reordered :
    let text := "\x7b\"a\":[1,\x7b\x7d],\n\"message\":\"m\", \"kind\":\x7b\"error\":null\x7d\x7d"
    let s : Status := { kind := .error, message := "m" }
    ofJsonText? text = some s ∧ ofJsonText? "[\"error\",\"m\"]" = some s ∧ ofJsonText? (text ++ " x") = none ∧
    ofJsonText? "\x7b\"kind\":\"error\",\"kind\":null,\"message\":\"\"\x7d" = none ∧
    ofJsonText? "[\"error\",\"m\",0]" = none := by
  intro text s
  obtain ⟨-, hread, hcount, hlength, hextra, -⟩ := reading_exact
  obtain ⟨hobject, -⟩ := hread s _ .member
  obtain ⟨-, harray⟩ := hread s _ .name
  have htext : Written (.object [(some "a", .array [.number, .object []]), (some "message", .string (some "m")),
      (some "kind", .object [(some "error", .null)])]) text := Json.laid_of_tokens (by decide +kernel)
  have hforeign : ∀ m ∈ [(some "a", Json.array [.number, .object []])], Json.IsForeign m :=
    List.forall_mem_singleton.mpr ⟨"a", rfl, by decide, by decide⟩
  refine ⟨hobject _ _ _ hforeign ?_ htext, harray _ (Json.laid_of_tokens (by decide +kernel)),
    hextra _ _ _ (.object _) htext ?_, hcount [(some "kind", .string (some "error")), (some "kind", .null),
      (some "message", .string (some ""))] _ (Json.laid_of_tokens (by decide +kernel)) "kind" ?_ ?_,
    hlength [.string (some "error"), .string (some "m"), .number] _ (Json.laid_of_tokens (by decide +kernel)) ?_⟩
  · exact List.reverse_perm [_, _, _]
  · exact fun hgap => absurd (hgap 'x' (by decide)) (by decide)
  · decide
  · decide
  · decide

/-! ## Writing and reading back -/

/-- A status is written as an object of its two members, `kind` and `message` in this order. -/
theorem written_toJson (s : Status) : Written
    (.object [(some "kind", .string (some s.kind.name)), (some "message", .string (some s.message))]) s.toJson := by
  have htext : s.toJson.toList = ['\x7b'] ++ (Json.Literal.encode "kind".toList ++ ([':'] ++
      (Json.Literal.encode s.kind.name.toList ++ ([','] ++ (Json.Literal.encode "message".toList ++ ([':'] ++
      (Json.Literal.encode s.message.toList ++ (['\x7d'] ++ [])))))))) := by
    have hkind : "\x7b\"kind\":".toList = ['\x7b'] ++ (Json.Literal.encode "kind".toList ++ [':']) := by decide
    have hmessage : ",\"message\":".toList = [','] ++ (Json.Literal.encode "message".toList ++ [':']) := by decide
    have hend : "\x7d".toList = ['\x7d'] := by decide
    simp only [toJson, Json.Literal.write, String.toList_append, String.toList_ofList, hkind, hmessage, hend,
      List.append_assoc, List.append_nil]
  rw [Written, htext]
  exact .token .openObject <| .token (Json.spelled_encode _) <| .token .colon <| .token (Json.spelled_encode _) <|
    .token .comma <| .token (Json.spelled_encode _) <| .token .colon <| .token (Json.spelled_encode _) <|
    .token .closeObject <| .nil Json.gap_nil

theorem ofJsonText?_toJson (s : Status) : ofJsonText? s.toJson = some s := by
  rw [ofJsonText?_of_written s.written_toJson]
  exact (HeldBy.object .name (List.forall_mem_nil _) (.refl _)).ofJson?

/-- **Every status reads back** from what it is written as (`toJson`), with any message. So different statuses
    are written differently; and a status that was read from any text, once it is written again, is read as
    the same status and written as before. -/
theorem toJson_read_back :
    (∀ s, ofJsonText? (toJson s) = some s) ∧ Function.Injective toJson ∧
    ∀ text s, ofJsonText? text = some s →
      ofJsonText? s.toJson = ofJsonText? text ∧ (ofJsonText? s.toJson).map toJson = some s.toJson := by
  refine ⟨ofJsonText?_toJson, fun s s' h => ?_, fun text s h => ?_⟩
  · have hread := ofJsonText?_toJson s
    rw [h, ofJsonText?_toJson] at hread
    exact (Option.some.inj hread).symm
  · rw [ofJsonText?_toJson, h]
    exact ⟨rfl, rfl⟩

/-- A status that is read from an array, with the control character `\u0000` in its message. -/
theorem toJson_read_back_of_array :
    let text := "[\x7b\"failed\":null\x7d, \"a\\u0000\"]"
    let s : Status := { kind := .failed, message := "a\x00" }
    ofJsonText? text = some s ∧ ofJsonText? s.toJson = ofJsonText? text ∧
      (ofJsonText? s.toJson).map toJson = some s.toJson := by
  intro text s
  have hread : ofJsonText? text = some s := by decide +kernel
  exact ⟨hread, toJson_read_back.2.2 text s hread⟩

end Status

end TestHarness
