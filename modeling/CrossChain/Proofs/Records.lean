import CrossChain.Proofs.Spelling

/-!
# Reading values and records

A value is written as a list of tokens, and is read by a machine that keeps what is open around it
on a stack. The value may be nested to any depth, so what the machine does is told for a value on
top of any stack, and for the items of an array and the members of an object along with it.

A record is an object with known fields. How it is written is not fixed: its members may come in any
order and among others, and a field that has its usual value may be left out. All that counts is
what stands under each of the known names.

## Main statements

* `Reading.run_value`, `apart_toTokens`: the tokens of a value.
* `parse?_of_spaced`: every text of the tokens of a value is read as the value.
* `Record`: the objects that a record may be written as.
* `Record.fields?`: they all have the same fields.
-/

namespace CrossChain.Json

/-! ## §1 Values -/

namespace Reading

variable {r : Reading}

/-- What may come after some tokens. -/
def run (r : Reading) (tokens : List Token) : Option Reading :=
  tokens.foldlM step r

theorem run_cons (token : Token) (tokens : List Token) :
    r.run (token :: tokens) = (r.step token).bind (·.run tokens) := rfl

theorem run_append {r' : Reading} {front : List Token} (h : r.run front = some r')
    (back : List Token) : r.run (front ++ back) = r'.run back := by
  rw [run, List.foldlM_append, ← run, h]
  rfl

/-- The items of an array start with a value, which does not start with the end of an array. -/
theorem run_firstItem (stack : List Frame) (item : Json) (rest : List Json) (more : List Token) :
    (awaitFirstItem stack).run (itemTokens (item :: rest) ++ more) =
      (awaitValue (.array [] :: stack)).run (itemTokens (item :: rest) ++ more) := by
  cases rest <;> cases item <;> rfl

/-- The members of an object start with a name. -/
theorem run_firstName (stack : List Frame) (member : Option (List Char) × Json)
    (rest : List (Option (List Char) × Json)) (more : List Token) :
    (awaitFirstName stack).run (memberTokens (member :: rest) ++ more) =
      (awaitName stack []).run (memberTokens (member :: rest) ++ more) := by
  cases rest <;> rfl

/-- A name and the colon after it. -/
theorem run_name (stack : List Frame) (before : List (Option (List Char) × Json))
    (name : Option (List Char)) (more : List Token) :
    (awaitName stack before).run (.text name :: .colon :: more) =
      (awaitValue (.object before name :: stack)).run more := rfl

mutual

/-- **A value** is read on top of whatever is open around it. -/
theorem run_value : ∀ (v : Json) (stack : List Frame),
    (awaitValue stack).run v.toTokens = some (deliver v stack)
  | .null, _ | .bool _, _ | .number _, _ | .text _, _ | .array [], _ | .object [], _ => rfl
  | .array (item :: rest), stack => by
    have hopen : (awaitValue stack).step .openArray = some (awaitFirstItem stack) := rfl
    have hitems := run_items (item :: rest) (List.cons_ne_nil _ _) stack []
    rw [toTokens, List.cons_append, run_cons, hopen, Option.bind_some, run_firstItem,
      run_append hitems, List.append_nil]
    show some (deliver (.array (item :: rest).reverse.reverse) stack) = _
    rw [List.reverse_reverse]
  | .object (member :: rest), stack => by
    have hopen : (awaitValue stack).step .openObject = some (awaitFirstName stack) := rfl
    have hmembers := run_members (member :: rest) (List.cons_ne_nil _ _) stack []
    rw [toTokens, List.cons_append, run_cons, hopen, Option.bind_some, run_firstName,
      run_append hmembers, List.append_nil]
    show some (deliver (.object (member :: rest).reverse.reverse) stack) = _
    rw [List.reverse_reverse]

/-- The items of an array. -/
theorem run_items : ∀ items : List Json, items ≠ [] → ∀ (stack : List Frame) (before : List Json),
    (awaitValue (.array before :: stack)).run (itemTokens items) =
      some (.afterItem stack (items.reverse ++ before))
  | [], hsome, _, _ => absurd rfl hsome
  | [item], _, stack, before => by
    rw [itemTokens, run_value]
    rfl
  | item :: next :: rest, _, stack, before => by
    have hcomma : (afterItem stack (item :: before)).step .comma =
        some (awaitValue (.array (item :: before) :: stack)) := rfl
    have hrest := run_items (next :: rest) (List.cons_ne_nil _ _) stack (item :: before)
    rw [itemTokens, run_append (run_value item _), deliver, run_cons, hcomma, Option.bind_some,
      hrest]
    · simp
    · exact List.cons_ne_nil _ _

/-- The members of an object. -/
theorem run_members : ∀ members : List (Option (List Char) × Json), members ≠ [] →
    ∀ (stack : List Frame) (before : List (Option (List Char) × Json)),
    (awaitName stack before).run (memberTokens members) =
      some (.afterMember stack (members.reverse ++ before))
  | [], hsome, _, _ => absurd rfl hsome
  | [(name, v)], _, stack, before => by
    rw [memberTokens, run_name, run_value]
    rfl
  | (name, v) :: next :: rest, _, stack, before => by
    have hcomma : (afterMember stack ((name, v) :: before)).step .comma =
        some (awaitName stack ((name, v) :: before)) := rfl
    have hrest := run_members (next :: rest) (List.cons_ne_nil _ _) stack ((name, v) :: before)
    rw [memberTokens, List.cons_append, List.cons_append, run_name, run_append (run_value v _),
      deliver, run_cons, hcomma, Option.bind_some, hrest]
    · simp
    · exact List.cons_ne_nil _ _

end

end Reading

/-- **A value** is read from its tokens. -/
theorem ofTokens?_toTokens (v : Json) : ofTokens? v.toTokens = some v := by
  have hrun := Reading.run_value v []
  rw [Reading.run] at hrun
  rw [ofTokens?, hrun]
  rfl

/-! ### Neighbours -/

namespace Token

variable {token : Token} {tokens front : List Token}

theorem Delimits.apart (h : token.Delimits) (before : Token) : before.Apart token := by
  cases before with
  | number => exact h
  | _ => trivial

/-- What ends a number can stand after anything. -/
theorem apart_append (hfront : front.IsChain Apart) (htokens : (token :: tokens).IsChain Apart)
    (h : token.Delimits) : (front ++ token :: tokens).IsChain Apart := by
  refine List.isChain_append.mpr ⟨hfront, htokens, ?_⟩
  intro before _ next hnext
  cases hnext
  exact h.apart before

theorem apart_cons (h : ∀ next, token.Apart next) (htokens : tokens.IsChain Apart) :
    (token :: tokens).IsChain Apart :=
  List.isChain_cons.mpr ⟨fun next _ => h next, htokens⟩

theorem apart_name (name : Option (List Char)) (htokens : tokens.IsChain Apart) :
    (.text name :: .colon :: tokens).IsChain Apart := by
  have hcolon : (colon :: tokens).IsChain Apart := apart_cons (fun _ => trivial) htokens
  exact apart_cons (fun _ => trivial) hcolon

end Token

mutual

/-- **The tokens of a value** can stand next to each other. -/
theorem apart_toTokens : ∀ v : Json, v.toTokens.IsChain Token.Apart
  | .null | .bool _ | .number _ | .text _ => .singleton _
  | .array items => by
    rw [toTokens]
    refine Token.apart_append ?_ (.singleton _) trivial
    exact Token.apart_cons (fun _ => trivial) (apart_itemTokens items)
  | .object members => by
    rw [toTokens]
    refine Token.apart_append ?_ (.singleton _) trivial
    exact Token.apart_cons (fun _ => trivial) (apart_memberTokens members)

theorem apart_itemTokens : ∀ items : List Json, (itemTokens items).IsChain Token.Apart
  | [] => .nil
  | [item] => apart_toTokens item
  | item :: next :: rest => by
    have hrest : (.comma :: itemTokens (next :: rest)).IsChain Token.Apart :=
      Token.apart_cons (fun _ => trivial) (apart_itemTokens (next :: rest))
    rw [itemTokens]
    · exact Token.apart_append (apart_toTokens item) hrest trivial
    · exact List.cons_ne_nil _ _

theorem apart_memberTokens : ∀ members : List (Option (List Char) × Json),
    (memberTokens members).IsChain Token.Apart
  | [] => .nil
  | [(name, v)] => by
    rw [memberTokens]
    exact Token.apart_name name (apart_toTokens v)
  | (name, v) :: next :: rest => by
    have hrest : (.comma :: memberTokens (next :: rest)).IsChain Token.Apart :=
      Token.apart_cons (fun _ => trivial) (apart_memberTokens (next :: rest))
    rw [memberTokens]
    · exact Token.apart_name name (Token.apart_append (apart_toTokens v) hrest trivial)
    · exact List.cons_ne_nil _ _

end

/-- **A text of a value**, however its tokens are spelled and whatever blanks are between them. -/
theorem parse?_of_spaced {v : Json} {text : List Char} (h : Spaced v.toTokens text) :
    parse? text = some v := by
  rw [parse?, tokens?_of_spaced h (apart_toTokens v)]
  exact ofTokens?_toTokens v

/-! ### Numbers -/

/-- A value whose numbers are written as numbers may be. -/
def Numeric (v : Json) : Prop :=
  ∀ literal, .number literal ∈ v.toTokens → Number literal

theorem number_mem_itemTokens {literal : List Char} :
    ∀ {items : List Json}, .number literal ∈ itemTokens items →
      ∃ item ∈ items, .number literal ∈ item.toTokens
  | [item], h => ⟨item, List.mem_singleton_self _, h⟩
  | item :: next :: rest, h => by
    rw [itemTokens] at h
    · rcases List.mem_append.mp h with hitem | hrest
      · exact ⟨item, List.mem_cons_self, hitem⟩
      · have hlater : .number literal ∈ itemTokens (next :: rest) := by simpa using hrest
        obtain ⟨other, hother, hnumber⟩ := number_mem_itemTokens hlater
        exact ⟨other, List.mem_cons_of_mem _ hother, hnumber⟩
    · exact List.cons_ne_nil _ _

theorem number_mem_memberTokens {literal : List Char} :
    ∀ {members : List (Option (List Char) × Json)}, .number literal ∈ memberTokens members →
      ∃ m ∈ members, .number literal ∈ m.2.toTokens
  | [(name, v)], h => ⟨(name, v), List.mem_singleton_self _, by simpa [memberTokens] using h⟩
  | (name, v) :: next :: rest, h => by
    rw [memberTokens] at h
    · have hcases : .number literal ∈ v.toTokens ∨
          .number literal ∈ memberTokens (next :: rest) := by simpa using h
      rcases hcases with hvalue | hlater
      · exact ⟨(name, v), List.mem_cons_self, hvalue⟩
      · obtain ⟨other, hother, hnumber⟩ := number_mem_memberTokens hlater
        exact ⟨other, List.mem_cons_of_mem _ hother, hnumber⟩
    · exact List.cons_ne_nil _ _

theorem numeric_array {items : List Json} (h : ∀ item ∈ items, item.Numeric) :
    (array items).Numeric := by
  intro literal hliteral
  have hitems : .number literal ∈ itemTokens items := by simpa [toTokens] using hliteral
  obtain ⟨item, hitem, hnumber⟩ := number_mem_itemTokens hitems
  exact h item hitem literal hnumber

theorem numeric_object {members : List (Option (List Char) × Json)}
    (h : ∀ m ∈ members, m.2.Numeric) : (object members).Numeric := by
  intro literal hliteral
  have hmembers : .number literal ∈ memberTokens members := by simpa [toTokens] using hliteral
  obtain ⟨m, hm, hnumber⟩ := number_mem_memberTokens hmembers
  exact h m hm literal hnumber

theorem numeric_ofMembers {members : List (String × Json)} (h : ∀ m ∈ members, m.2.Numeric) :
    (ofMembers members).Numeric := by
  apply numeric_object
  intro named hnamed
  obtain ⟨m, hm, rfl⟩ := List.mem_map.mp hnamed
  exact h m hm

theorem numeric_number {literal : List Char} (h : Number literal) : (number literal).Numeric := by
  intro other hother
  cases List.mem_singleton.mp hother
  exact h

theorem numeric_ofInt : ∀ z : ℤ, (ofInt z).Numeric
  | .ofNat n => numeric_number (number_toDigits (.inl rfl) n)
  | .negSucc n => numeric_number (number_toDigits (.inr rfl) (n + 1))

theorem numeric_ofNat (n : ℕ) : (ofNat n).Numeric := numeric_ofInt n

theorem numeric_text (content : Option (List Char)) : (text content).Numeric :=
  fun _ h => nomatch List.mem_singleton.mp h

theorem numeric_bool (value : Bool) : (bool value).Numeric :=
  fun _ h => nomatch List.mem_singleton.mp h

theorem numeric_null : null.Numeric :=
  fun _ h => nomatch List.mem_singleton.mp h

/-- **The text that is written**, with or without blanks before the tokens. -/
theorem Numeric.spaced {v : Json} (h : v.Numeric) {blanks : List Char} (hblanks : Blank blanks) :
    Spaced v.toTokens (v.toTokens.flatMap fun token => blanks ++ token.spell) :=
  spaced_flatMap hblanks h

/-! ## §2 Records -/

/-- A field of a record. -/
structure Field where
  name : String
  /-- The values that stand for it. -/
  holds : Json → Prop
  /-- Whether it has its usual value, and may be left out. -/
  usual : Prop

/-- The value that is found under the name of a field, if any. -/
def Field.Given (field : Field) : Option Json → Prop
  | some v => field.holds v
  | none => field.usual

/-- The members that some fields are written as, in the order of the fields. -/
inductive Kept : List Field → List (Option (List Char) × Json) → Prop where
  | nil : Kept [] []
  | keep {field : Field} {fields : List Field} {v : Json}
      {members : List (Option (List Char) × Json)} (hv : field.holds v)
      (h : Kept fields members) : Kept (field :: fields) ((some field.name.toList, v) :: members)
  | drop {field : Field} {fields : List Field} {members : List (Option (List Char) × Json)}
      (husual : field.usual) (h : Kept fields members) : Kept (field :: fields) members

/-- What a record with some fields may be written as: members for the fields, others under names
that are not known, and all of them in any order. -/
inductive Record (fields : List Field) : Json → Prop where
  | intro {kept others members : List (Option (List Char) × Json)} (hkept : Kept fields kept)
      (hothers : ∀ m ∈ others, ∃ name, m.1 = some name ∧
        ∀ field ∈ fields, name ≠ field.name.toList)
      (hmembers : members.Perm (kept ++ others)) : Record fields (.object members)

section Fields

variable {field : Field} {fields : List Field}
  {kept others members : List (Option (List Char) × Json)}

/-- Every member that is kept has the name of a field. -/
theorem Kept.exists_field (h : Kept fields kept) :
    ∀ m ∈ kept, ∃ field ∈ fields, m.1 = some field.name.toList := by
  induction h with
  | nil => exact fun _ hm => nomatch hm
  | @keep field fields v members hv h ih =>
    intro m hm
    rcases List.mem_cons.mp hm with rfl | hm
    · exact ⟨field, List.mem_cons_self, rfl⟩
    · obtain ⟨other, hother, hname⟩ := ih m hm
      exact ⟨other, List.mem_cons_of_mem _ hother, hname⟩
  | drop husual h ih =>
    intro m hm
    obtain ⟨other, hother, hname⟩ := ih m hm
    exact ⟨other, List.mem_cons_of_mem _ hother, hname⟩

/-- The members with a name. -/
def named (members : List (Option (List Char) × Json)) (name : String) :
    List (Option (List Char) × Json) :=
  members.filter fun m => m.1 = some name.toList

/-- A name that no field has is not kept. -/
theorem Kept.named_eq_nil (h : Kept fields kept) (hnot : field.name ∉ fields.map Field.name) :
    named kept field.name = [] := by
  apply List.filter_eq_nil_iff.mpr
  intro m hm
  obtain ⟨other, hother, hname⟩ := h.exists_field m hm
  rw [hname, decide_eq_true_iff, Option.some_inj, String.toList_inj]
  intro hsame
  exact hnot (hsame ▸ List.mem_map_of_mem hother)

/-- **A field that is kept or left out**, as the names of the fields are different. -/
theorem Kept.given (h : Kept fields kept) (hnodup : (fields.map Field.name).Nodup) :
    ∀ field ∈ fields, ∃ value : Option Json, field.Given value ∧
      named kept field.name = value.toList.map (some field.name.toList, ·) := by
  induction h with
  | nil => exact fun _ hfield => nomatch hfield
  | @keep first rest v members hv h ih =>
    obtain ⟨hnot, hrest⟩ := List.nodup_cons.mp hnodup
    intro field hfield
    rcases List.mem_cons.mp hfield with rfl | hfield
    · refine ⟨some v, hv, ?_⟩
      have hnil := h.named_eq_nil hnot
      rw [named] at hnil ⊢
      rw [List.filter_cons_of_pos (by simp), hnil]
      rfl
    · obtain ⟨value, hgiven, hnamed⟩ := ih hrest field hfield
      refine ⟨value, hgiven, ?_⟩
      have hother : ¬ some first.name.toList = some field.name.toList := by
        rw [Option.some_inj, String.toList_inj]
        intro hsame
        exact hnot (hsame ▸ List.mem_map_of_mem hfield)
      rw [← hnamed]
      exact List.filter_cons_of_neg (by simpa using hother)
  | @drop first rest members husual h ih =>
    obtain ⟨hnot, hrest⟩ := List.nodup_cons.mp hnodup
    intro field hfield
    rcases List.mem_cons.mp hfield with rfl | hfield
    · exact ⟨none, husual, h.named_eq_nil hnot⟩
    · exact ih hrest field hfield

/-- **What is found under the name of a field** among the members of a record. -/
theorem exists_unique? (hkept : Kept fields kept) (hnodup : (fields.map Field.name).Nodup)
    (hothers : ∀ m ∈ others, ∃ name, m.1 = some name ∧ ∀ field ∈ fields, name ≠ field.name.toList)
    (hmembers : members.Perm (kept ++ others)) (hfield : field ∈ fields) :
    ∃ value, unique? members field.name = some value ∧ field.Given value := by
  obtain ⟨value, hgiven, hnamed⟩ := hkept.given hnodup field hfield
  have hunknown : named others field.name = [] := by
    apply List.filter_eq_nil_iff.mpr
    intro m hm
    obtain ⟨name, hname, hother⟩ := hothers m hm
    simpa [hname] using hother field hfield
  have hfound : (named members field.name).Perm
      (value.toList.map (some field.name.toList, ·)) := by
    have hperm := hmembers.filter fun m => m.1 = some field.name.toList
    rw [List.filter_append] at hperm
    rwa [← named, ← named, ← named, hnamed, hunknown, List.append_nil] at hperm
  refine ⟨value, ?_, hgiven⟩
  -- There is at most one, so nothing is left of the order.
  cases value with
  | none =>
    have hnil : members.filter _ = [] := List.perm_nil.mp hfound
    rw [unique?, hnil]
  | some v =>
    have hone : members.filter _ = [_] := List.perm_singleton.mp hfound
    rw [unique?, hone]

theorem exists_mapM_unique? {known : List Field}
    (h : ∀ field ∈ known, ∃ value, unique? members field.name = some value ∧ field.Given value) :
    ∃ values, (known.map Field.name).mapM (unique? members) = some values ∧
      List.Forall₂ Field.Given known values := by
  induction known with
  | nil => exact ⟨[], rfl, .nil⟩
  | cons field rest ih =>
    obtain ⟨⟨value, hvalue, hgiven⟩, hrest⟩ := List.forall_mem_cons.mp h
    obtain ⟨values, hvalues, hall⟩ := ih hrest
    refine ⟨value :: values, ?_, .cons hgiven hall⟩
    rw [List.map_cons, List.mapM_cons, hvalue, hvalues]
    rfl

end Fields

/-- **The fields of a record**, whatever it is written as. -/
theorem Record.fields? {fields : List Field} {v : Json} (h : Record fields v)
    (hnodup : (fields.map Field.name).Nodup) :
    ∃ values, v.fields? (fields.map Field.name) = some values ∧
      List.Forall₂ Field.Given fields values := by
  obtain ⟨hkept, hothers, hmembers⟩ := h
  obtain ⟨values, hvalues, hgiven⟩ := exists_mapM_unique? fun field hfield =>
    exists_unique? hkept hnodup hothers hmembers hfield
  refine ⟨values, ?_, hgiven⟩
  rw [Json.fields?, if_pos, hvalues]
  simp only [List.all_eq_true]
  intro m hm
  rcases List.mem_append.mp (hmembers.mem_iff.mp hm) with hm | hm
  · obtain ⟨field, _, hname⟩ := hkept.exists_field m hm
    rw [hname]
    rfl
  · obtain ⟨name, hname, _⟩ := hothers m hm
    rw [hname]
    rfl

/-- All fields in their order are one way to write a record. -/
theorem record_ofMembers {fields : List Field} {members : List (String × Json)}
    (h : List.Forall₂ (fun field m => field.name = m.1 ∧ field.holds m.2) fields members) :
    Record fields (ofMembers members) := by
  have hkept : Kept fields (members.map fun m => (some m.1.toList, m.2)) := by
    induction h with
    | nil => exact .nil
    | cons hfirst _ ih =>
      obtain ⟨hname, hv⟩ := hfirst
      rw [List.map_cons, ← hname]
      exact .keep hv ih
  refine .intro hkept (fun m hm => absurd hm List.not_mem_nil) ?_
  rw [List.append_nil]

end CrossChain.Json
