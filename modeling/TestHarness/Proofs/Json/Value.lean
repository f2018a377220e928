import TestHarness.Proofs.Json.Token

/-!
# How values are written

`tokensOf` gives the tokens of a value, and `Written` says that a text lays them out, each in any of its spellings
and with any blanks between them. A text is read as a value exactly if it writes this value
(`ofText?_eq_some_iff`), at any depth of nesting.

The one direction follows the machine over the tokens of a value (`takes`), by induction on the value. The
other needs what the machine has already taken: the open frames and the place among them tell which tokens these
were (`Took`), and each step adds its token to them (`Took.step`).

An array or object ends with its closing bracket, so nothing but blanks may follow it in a text
(`Written.ofText?_append`).
-/

namespace TestHarness.Json

/-! ## The tokens of a value -/

mutual

/-- **The tokens of a value**, with `.comma` between the items of an array and the members of an object. -/
def tokensOf : Json → List Token
  | .null => [.null]
  | .bool b => [.bool b]
  | .number => [.number]
  | .string text => [.string text]
  | .array items => .openArray :: ([Token.comma].intercalate (tokensOfItems items) ++ [.closeArray])
  | .object members => .openObject :: ([Token.comma].intercalate (tokensOfMembers members) ++ [.closeObject])

/-- The tokens of each item, as `tokensOf` gives them. -/
def tokensOfItems : List Json → List (List Token)
  | [] => []
  | v :: items => tokensOf v :: tokensOfItems items

/-- The tokens of each member: its key, `.colon` and those of its value. -/
def tokensOfMembers : List (Option String × Json) → List (List Token)
  | [] => []
  | (key, v) :: members => (.string key :: .colon :: tokensOf v) :: tokensOfMembers members

end

/-- The tokens of a member, `tokensOfMembers` for a single one. -/
def tokensOfMember (member : Option String × Json) : List Token := .string member.1 :: .colon :: tokensOf member.2

/-- **A text that writes a value**: one in which `tokensOf v` is `Laid`. -/
def Written (v : Json) (text : String) : Prop := Laid (tokensOf v) text.toList

theorem tokensOfItems_eq_map (items : List Json) : tokensOfItems items = items.map tokensOf := by
  induction items with
  | nil => rfl
  | cons v items ih => rw [tokensOfItems, ih, List.map_cons]

theorem tokensOfMembers_eq_map (members : List (Option String × Json)) :
    tokensOfMembers members = members.map tokensOfMember := by
  induction members with
  | nil => rfl
  | cons m members ih => rw [tokensOfMembers, ih, List.map_cons, tokensOfMember]

/-- Induction on a value, where `array` and `object` have it for the values inside them. -/
theorem induction {P : Json → Prop} (null : P .null) (bool : ∀ b, P (.bool b)) (number : P .number)
    (string : ∀ text, P (.string text)) (array : ∀ items, (∀ v ∈ items, P v) → P (.array items))
    (object : ∀ members, (∀ m ∈ members, P m.2) → P (.object members)) (v : Json) : P v :=
  @Json.rec P (fun items => ∀ v ∈ items, P v) (fun members => ∀ m ∈ members, P m.2) (fun m => P m.2)
    null bool number string array object nofun
    (fun _ _ hv hitems => List.forall_mem_cons.mpr ⟨hv, hitems⟩) nofun
    (fun _ _ hm hmembers => List.forall_mem_cons.mpr ⟨hm, hmembers⟩) (fun _ _ hv => hv) v

section

variable {v : Json} {items : List Json} {members : List (Option String × Json)} {stack : List Frame}
  {p q : Parser} {t : Token} {ts us : List Token}

/-! ## From a value to its tokens -/

theorem feed_cons (h : p.step t = some q) (ts : List Token) : p.feed (t :: ts) = q.feed ts := by
  rw [Parser.feed, h, Option.bind_some]

/-- **`Taken v`**: the machine takes `tokensOf v` and hands `v` to the innermost frame. -/
def Taken (v : Json) : Prop :=
  ∀ (stack : List Frame) (ts : List Token),
    (Parser.value stack).feed (tokensOf v ++ ts) = (Parser.supply stack v).feed ts

/-- **A list with commas.** If `before` takes an element and comes to `after`, and a comma leads back, then `before`
takes one element or more with commas between them. -/
theorem feed_intercalate {α : Type} {write : α → List Token} {elements : List α} (before after : List α → Parser)
    (helement : ∀ x ∈ elements, ∀ done ts, (before done).feed (write x ++ ts) = (after (x :: done)).feed ts)
    (hcomma : ∀ x done, (after (x :: done)).step .comma = some (before (x :: done))) (hne : elements ≠ [])
    (done : List α) (ts : List Token) :
    (before done).feed ([Token.comma].intercalate (elements.map write) ++ ts)
      = (after (elements.reverse ++ done)).feed ts := by
  induction elements generalizing done with
  | nil => exact absurd rfl hne
  | cons x elements ih =>
      obtain ⟨hx, helements⟩ := List.forall_mem_cons.mp helement
      cases elements with
      | nil =>
          rw [List.map_singleton, List.intercalate_singleton]
          exact hx done ts
      | cons y elements =>
          have hsplit : [Token.comma].intercalate ((x :: y :: elements).map write) ++ ts
              = write x ++ .comma :: ([Token.comma].intercalate ((y :: elements).map write) ++ ts) := by
            simp [List.intercalate_cons_cons]
          calc
            _ = (after (x :: done)).feed (.comma :: ([Token.comma].intercalate ((y :: elements).map write) ++ ts)) := by
                rw [hsplit, hx]
            _ = (before (x :: done)).feed ([Token.comma].intercalate ((y :: elements).map write) ++ ts) :=
                feed_cons (hcomma x done) _
            _ = (after ((y :: elements).reverse ++ x :: done)).feed ts :=
                ih helements (List.cons_ne_nil y elements) (x :: done)
            _ = (after ((x :: y :: elements).reverse ++ done)).feed ts := by
                rw [@List.reverse_cons _ x, List.append_assoc, List.singleton_append]

/-- Where an item may come, behind the given ones: `.firstItem` or, after a comma, `.value`. -/
def beforeItem (stack : List Frame) : List Json → Parser
  | [] => .firstItem stack
  | v :: items => .value (.array (v :: items) :: stack)

/-- Where a member may come, behind the given ones: `.firstKey` or, after a comma, `.nextKey`. -/
def beforeMember (stack : List Frame) : List (Option String × Json) → Parser
  | [] => .firstKey stack
  | m :: members => .nextKey (m :: members) stack

/-- In `.firstItem` any value may come, since none starts with the end of an array. -/
theorem feed_firstItem (v : Json) (stack : List Frame) (ts : List Token) :
    (Parser.firstItem stack).feed (tokensOf v ++ ts)
      = (Parser.value (.array [] :: stack)).feed (tokensOf v ++ ts) := by
  cases v with
  | _ => rfl

theorem Taken.item (h : Taken v) (done : List Json) (ts : List Token) :
    (beforeItem stack done).feed (tokensOf v ++ ts) = (Parser.afterItem (v :: done) stack).feed ts := by
  cases done with
  | nil => exact (feed_firstItem v stack ts).trans (h _ ts)
  | cons w done => exact h _ ts

theorem Taken.member {m : Option String × Json} (h : Taken m.2) (done : List (Option String × Json))
    (ts : List Token) :
    (beforeMember stack done).feed (tokensOfMember m ++ ts) = (Parser.afterMember (m :: done) stack).feed ts := by
  have hkey : (beforeMember stack done).feed (tokensOfMember m ++ ts)
      = (Parser.value (.object done m.1 :: stack)).feed (tokensOf m.2 ++ ts) := by
    cases done with
    | _ => rfl
  exact hkey.trans (h _ ts)

theorem taken_array (h : ∀ v ∈ items, Taken v) : Taken (.array items) := by
  intro stack ts
  rw [tokensOf, tokensOfItems_eq_map, List.cons_append, List.append_assoc, feed_cons (q := .firstItem stack) rfl]
  cases items with
  | nil => exact feed_cons rfl ts
  | cons v items =>
      have hitems := feed_intercalate (beforeItem stack) (.afterItem · stack) (fun v hv => (h v hv).item)
        (fun _ _ => rfl) (List.cons_ne_nil v items) [] ([.closeArray] ++ ts)
      refine hitems.trans ?_
      rw [List.append_nil, List.singleton_append, feed_cons rfl, List.reverse_reverse]

theorem taken_object (h : ∀ m ∈ members, Taken m.2) : Taken (.object members) := by
  intro stack ts
  rw [tokensOf, tokensOfMembers_eq_map, List.cons_append, List.append_assoc, feed_cons (q := .firstKey stack) rfl]
  cases members with
  | nil => exact feed_cons rfl ts
  | cons m members =>
      have hmembers := feed_intercalate (beforeMember stack) (.afterMember · stack) (fun m hm => (h m hm).member)
        (fun _ _ => rfl) (List.cons_ne_nil m members) [] ([.closeObject] ++ ts)
      refine hmembers.trans ?_
      rw [List.append_nil, List.singleton_append, feed_cons rfl, List.reverse_reverse]

/-- **The tokens of every value are taken**: `Taken v`, by induction on `v`. -/
theorem taken (v : Json) : Taken v := by
  induction v using induction with
  | null => exact fun _ _ => rfl
  | bool b => exact fun _ _ => rfl
  | number => exact fun _ _ => rfl
  | string text => exact fun _ _ => rfl
  | array items h => exact taken_array h
  | object members h => exact taken_object h

/-! ## From tokens to their value -/

/-- The tokens behind which a frame is open: `.openArray` or `.openObject` and whatever stands before its
    gap. -/
def Frame.tokens : Frame → List Token
  | .array items => .openArray :: items.reverse.flatMap fun v => tokensOf v ++ [.comma]
  | .object members key =>
      .openObject :: (members.reverse.flatMap fun m => tokensOfMember m ++ [.comma]) ++ [.string key, .colon]

/-- The tokens behind which the frames of a stack are open, the innermost one last: the `Frame.tokens` of
    each. -/
def openTokens (stack : List Frame) : List Token := stack.reverse.flatMap Frame.tokens

/-- **What the machine has taken.** In `Took p ts` the place `p` tells all of `ts`. -/
inductive Took : Parser → List Token → Prop where
  | value (stack : List Frame) : Took (.value stack) (openTokens stack)
  | firstItem (stack : List Frame) : Took (.firstItem stack) (openTokens stack ++ [.openArray])
  | afterItem (v : Json) (items : List Json) (stack : List Frame) :
      Took (.afterItem (v :: items) stack) (openTokens (.array items :: stack) ++ tokensOf v)
  | firstKey (stack : List Frame) : Took (.firstKey stack) (openTokens stack ++ [.openObject])
  | nextKey (members : List (Option String × Json)) (stack : List Frame) :
      Took (.nextKey members stack)
        (openTokens stack ++ .openObject :: members.reverse.flatMap fun m => tokensOfMember m ++ [.comma])
  | colon (members : List (Option String × Json)) (key : Option String) (stack : List Frame) :
      Took (.colon members key stack)
        (openTokens stack ++ .openObject :: (members.reverse.flatMap fun m => tokensOfMember m ++ [.comma])
          ++ [.string key])
  | afterMember (key : Option String) (v : Json) (members : List (Option String × Json)) (stack : List Frame) :
      Took (.afterMember ((key, v) :: members) stack) (openTokens (.object members key :: stack) ++ tokensOf v)
  | done (v : Json) : Took (.done v) (tokensOf v)

theorem openTokens_cons (frame : Frame) (stack : List Frame) :
    openTokens (frame :: stack) = openTokens stack ++ frame.tokens := by
  simp [openTokens]

theorem intercalate_concat {α : Type} (sep last : List α) (xs : List (List α)) :
    sep.intercalate (xs ++ [last]) = xs.flatMap (· ++ sep) ++ last := by
  induction xs with
  | nil => simp
  | cons x xs ih =>
      cases xs with
      | nil => simp
      | cons y xs =>
          rw [List.cons_append, List.cons_append, List.intercalate_cons_cons, ← List.cons_append, ih]
          simp

/-- A finished value stands behind the open frames, and `Parser.supply` hands it to the innermost one. -/
theorem took_supply (stack : List Frame) (v : Json) :
    Took (Parser.supply stack v) (openTokens stack ++ tokensOf v) := by
  cases stack with
  | nil => exact .done v
  | cons frame stack =>
      cases frame with
      | array items => exact .afterItem v items stack
      | object members key => exact .afterMember key v members stack

theorem took_start (h : Parser.start stack t = some q) : Took q (openTokens stack ++ [t]) := by
  cases t with
  | null => cases h; exact took_supply stack .null
  | bool b => cases h; exact took_supply stack (.bool b)
  | number => cases h; exact took_supply stack .number
  | string text => cases h; exact took_supply stack (.string text)
  | openArray => cases h; exact .firstItem stack
  | openObject => cases h; exact .firstKey stack
  | _ => cases h

/-- Behind the last item comes `.closeArray`, and the tokens are those of the array. -/
theorem openTokens_closeArray (v : Json) (items : List Json) (stack : List Frame) :
    openTokens (.array items :: stack) ++ tokensOf v ++ [.closeArray]
      = openTokens stack ++ tokensOf (.array (v :: items).reverse) := by
  rw [openTokens_cons, Frame.tokens, tokensOf, tokensOfItems_eq_map, List.reverse_cons, List.map_append,
    List.map_singleton, intercalate_concat, List.flatMap_map]
  simp only [List.append_assoc, List.cons_append]

/-- Behind the last member comes `.closeObject`, and the tokens are those of the object. -/
theorem openTokens_closeObject (key : Option String) (v : Json) (members : List (Option String × Json))
    (stack : List Frame) :
    openTokens (.object members key :: stack) ++ tokensOf v ++ [.closeObject]
      = openTokens stack ++ tokensOf (.object ((key, v) :: members).reverse) := by
  rw [openTokens_cons, Frame.tokens, tokensOf, tokensOfMembers_eq_map, List.reverse_cons, List.map_append,
    List.map_singleton, intercalate_concat, List.flatMap_map]
  simp only [List.append_assoc, List.cons_append, tokensOfMember, List.nil_append]

/-- **A step takes its token**: `Took` before it, and with `t` at the end after it. -/
theorem Took.step (h : Took p ts) (hstep : p.step t = some q) : Took q (ts ++ [t]) := by
  cases h with
  | value stack => exact took_start hstep
  | firstItem stack =>
      -- the array ends at once, or its first item begins as any value does
      by_cases hend : t = .closeArray
      · subst hend
        cases hstep
        rw [List.append_assoc]
        exact took_supply stack (.array [])
      · have hstart : Parser.start (.array [] :: stack) t = some q := by
          cases t with
          | closeArray => exact absurd rfl hend
          | _ => exact hstep
        have hopen : openTokens (.array [] :: stack) = openTokens stack ++ [.openArray] := openTokens_cons _ _
        exact hopen ▸ took_start hstart
  | afterItem v items stack =>
      -- a comma makes the item one of the frame's, and the end of the array makes the frame a value
      cases t with
      | comma =>
          cases hstep
          have hopen : openTokens (.array (v :: items) :: stack)
              = openTokens (.array items :: stack) ++ tokensOf v ++ [.comma] := by
            simp [openTokens_cons, Frame.tokens]
          exact hopen ▸ .value _
      | closeArray =>
          cases hstep
          exact openTokens_closeArray v items stack ▸ took_supply stack _
      | _ => cases hstep
  | firstKey stack =>
      cases t with
      | closeObject =>
          cases hstep
          rw [List.append_assoc]
          exact took_supply stack (.object [])
      | string key =>
          cases hstep
          exact .colon [] key stack
      | _ => cases hstep
  | nextKey members stack =>
      cases t with
      | string key =>
          cases hstep
          exact .colon members key stack
      | _ => cases hstep
  | colon members key stack =>
      cases t with
      | colon =>
          cases hstep
          have hopen : openTokens (.object members key :: stack) = openTokens stack ++ .openObject
              :: (members.reverse.flatMap fun m => tokensOfMember m ++ [.comma]) ++ [.string key] ++ [.colon] := by
            simp [openTokens_cons, Frame.tokens]
          exact hopen ▸ .value _
      | _ => cases hstep
  | afterMember key v members stack =>
      -- the same of a member and its object
      cases t with
      | comma =>
          cases hstep
          have hopen : openTokens stack ++ .openObject
                :: (((key, v) :: members).reverse.flatMap fun m => tokensOfMember m ++ [.comma])
              = openTokens (.object members key :: stack) ++ tokensOf v ++ [.comma] := by
            simp [openTokens_cons, Frame.tokens, tokensOfMember]
          exact hopen ▸ .nextKey _ _
      | closeObject =>
          cases hstep
          exact openTokens_closeObject key v members stack ▸ took_supply stack _
      | _ => cases hstep
  | done v => cases hstep

/-- So does a run, `Parser.feed`, take its tokens. -/
theorem Took.feed (h : Took p ts) (hfeed : p.feed us = some q) : Took q (ts ++ us) := by
  induction us generalizing p ts with
  | nil =>
      cases hfeed
      rwa [List.append_nil]
  | cons t us ih =>
      obtain ⟨r, hstep, hrest⟩ := Option.bind_eq_some_iff.mp hfeed
      rw [List.append_cons]
      exact ih (h.step hstep) hrest

theorem Took.eq_tokensOf (h : Took (.done v) ts) : ts = tokensOf v := by
  cases h with
  | done v => rfl

/-- **The tokens of a value**, `tokensOf v`, are those that `ofTokens?` reads as this value, and no others. -/
theorem ofTokens?_eq_some_iff : ofTokens? ts = some v ↔ ts = tokensOf v := by
  constructor
  · intro h
    obtain ⟨q, hfeed, hresult⟩ := Option.bind_eq_some_iff.mp h
    have htook : Took q ts := (Took.value []).feed hfeed
    cases q with
    | done w =>
        cases hresult
        exact htook.eq_tokensOf
    | _ => cases hresult
  · rintro rfl
    have hfeed := taken v [] []
    rw [List.append_nil] at hfeed
    rw [ofTokens?, hfeed]
    rfl

/-! ## Texts -/

/-- Behind a number the machine takes only an `IsStop`: `.comma`, `.closeArray` or `.closeObject`. -/
theorem isStop_of_supply (h : (Parser.supply stack v).step t = some q) : t.IsStop := by
  cases stack with
  | nil => cases h
  | cons frame stack =>
      cases frame with
      | array items =>
          cases t with
          | comma => exact .inl rfl
          | closeArray => exact .inr (.inl rfl)
          | _ => cases h
      | object members key =>
          cases t with
          | comma => exact .inl rfl
          | closeObject => exact .inr (.inr rfl)
          | _ => cases h

theorem supply_of_number (h : p.step .number = some q) : ∃ stack, q = Parser.supply stack .number := by
  cases p with
  | value stack => exact ⟨stack, (Option.some.inj h).symm⟩
  | firstItem stack => exact ⟨.array [] :: stack, (Option.some.inj h).symm⟩
  | _ => cases h

/-- So tokens that the machine takes do not run into each other: neighbours are `Token.Beside`. -/
theorem isChain_of_feed (h : p.feed ts = some q) : ts.IsChain Token.Beside := by
  induction ts generalizing p with
  | nil => exact .nil
  | cons t ts ih =>
      obtain ⟨r, hstep, hrest⟩ := Option.bind_eq_some_iff.mp h
      refine List.isChain_cons.mpr ⟨?_, ih hrest⟩
      rintro u hu rfl
      obtain ⟨stack, rfl⟩ := supply_of_number hstep
      cases ts with
      | nil => cases hu
      | cons u' ts =>
          cases hu
          obtain ⟨_, hnext, -⟩ := Option.bind_eq_some_iff.mp hrest
          exact isStop_of_supply hnext

theorem isChain_tokensOf (v : Json) : (tokensOf v).IsChain Token.Beside := by
  have hfeed := taken v [] []
  rw [List.append_nil] at hfeed
  exact isChain_of_feed hfeed

/-- **A text is read as the value that it writes**, `Written v text`, and as no other. -/
theorem ofText?_eq_some_iff {text : String} : ofText? text = some v ↔ Written v text := by
  rw [ofText?, Option.bind_eq_some_iff]
  constructor
  · rintro ⟨ts, htokens, hvalue⟩
    obtain rfl := ofTokens?_eq_some_iff.mp hvalue
    exact laid_of_tokens htokens
  · intro h
    exact ⟨tokensOf v, tokens_of_laid h (isChain_tokensOf v), ofTokens?_eq_some_iff.mpr rfl⟩

/-- **Every value can be written**: some text is `Written v`. -/
theorem exists_written (v : Json) : ∃ text, Written v text := by
  obtain ⟨cs, h⟩ := exists_laid (tokensOf v)
  exact ⟨String.ofList cs, by rwa [Written, String.toList_ofList]⟩

/-- An `.array` or `.object`, which ends with its closing bracket. -/
inductive IsComposite : Json → Prop where
  | array (items : List Json) : IsComposite (.array items)
  | object (members : List (Option String × Json)) : IsComposite (.object members)

theorem IsComposite.getLast? (h : v.IsComposite) : (tokensOf v).getLast? ≠ some .number := by
  cases h with
  | array items => rw [tokensOf, ← List.cons_append, List.getLast?_concat]; nofun
  | object members => rw [tokensOf, ← List.cons_append, List.getLast?_concat]; nofun

/-- **Nothing but a `Gap`** may follow an array or object. -/
theorem Written.ofText?_append {text : String} (h : Written v text) (hcomposite : v.IsComposite) {extra : String}
    (hextra : ¬ Gap extra.toList) : ofText? (text ++ extra) = none := by
  have hlast : (tokensOf v).getLast? = some .number → Avoids extendsNumber extra.toList :=
    fun hlast => absurd hlast hcomposite.getLast?
  obtain ⟨fuel, htokens⟩ := h.tokens_append (isChain_tokensOf v) hlast
  rw [ofText?, String.toList_append, htokens]
  cases hrest : tokensWithin fuel extra.toList with
  | none => rfl
  | some ts =>
      cases ts with
      | nil =>
          cases laid_of_tokensWithin hrest with
          | nil hgap => exact absurd hgap hextra
      | cons t ts =>
          -- the value is complete, and the machine takes no more tokens
          rw [Option.map_some, Option.bind_some, ofTokens?, taken]
          rfl

end

end TestHarness.Json
