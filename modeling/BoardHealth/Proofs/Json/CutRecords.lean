import BoardHealth.Json.Record
import BoardHealth.Proofs.Json.CutValues
import BoardHealth.Proofs.Json.Values

/-!
# Structures that are cut

The members of an object are read or passed over one by one, and behind each the end of
the text is met. So a structure is read only where its bracket is closed, and of a
document that is cut nothing is read, whatever the values of fields that are lost.

> `stops_passValue`: passing over a value, however deep it nests.
> `stops_record`: structures, which are never left of another one.
> `refusesFronts_record`: documents.
-/

namespace BoardHealth.Json

namespace Reader

variable {back : List Char} {s : Spot} {front left : List Char} {fields : List Field}

/-! ## Passing over values -/

/-- Passes over the rest of a value from a place inside the brackets that are open. -/
def skipFrom (place : Place) (outer : List Bracket) : Reader Unit where
  run := runSkip place outer
  leaves_suffix h := runSkip_suffix _ _ h

/-- What is done at each place, as a reader. -/
def skipAt : Place → List Bracket → Reader Unit
  | .value, outer => do
    blanks
    match ← peek with
    | none => fail .endInValue
    | some c =>
      if c = '[' then
        advance
        skipFrom (.opened .list) outer
      else if c = '{' then
        advance
        skipFrom (.opened .object) outer
      else
        passScalar
        skipFrom .after outer
  | .opened b, outer => do
    blanks
    match ← peek with
    | none => fail b.endError
    | some c =>
      if c = b.closing then
        advance
        skipFrom .after outer
      else
        passLabel b
        skipFrom .value (b :: outer)
  | .after, [] => pure ()
  | .after, b :: outer => do
    blanks
    match ← peek with
    | none => fail b.endError
    | some c =>
      if c = ',' then
        advance
        passLabel b
        skipFrom .value (b :: outer)
      else if c = b.closing then
        advance
        skipFrom .after outer
      else fail b.separatorError

theorem run_passItems (b : Bracket) (outer : List Bracket) (text : List Char) :
    (do
      passLabel b
      skipFrom .value (b :: outer) : Reader Unit).run text = passItems b outer text := by
  rw [passItems, run_bind]
  cases (passLabel b).run text <;> rfl

/-- Inside a bracket the text must not end. -/
theorem runSkip_of_blanks {text : List Char} (h : text.dropWhile isBlank = [])
    (outer : List Bracket) (b : Bracket) :
    runSkip .value outer text = .error .endInValue
      ∧ runSkip (.opened b) outer text = .error b.endError
      ∧ runSkip .after (b :: outer) text = .error b.endError := by
  refine ⟨?_, ?_, ?_⟩ <;>
    · rw [runSkip]
      split
      next => rfl
      next heq => rw [h] at heq; cases heq

theorem run_skipFrom (place : Place) (outer : List Bracket) (text : List Char) :
    (skipFrom place outer).run text = (skipAt place outer).run text := by
  show runSkip place outer text = _
  match place, outer with
  | .value, outer =>
    cases hdrop : text.dropWhile isBlank with
    | nil =>
      rw [skipAt, run_blanks_of_nil hdrop, (runSkip_of_blanks hdrop outer .list).1]
      rfl
    | cons c rest =>
      rw [skipAt, run_blanks_of_cons hdrop, runSkip_value hdrop]
      dsimp only
      split
      next => rfl
      next =>
        split
        next => rfl
        next =>
          refine Eq.trans ?_ (run_bind passScalar _ (c :: rest)).symm
          cases passScalar.run (c :: rest) <;> rfl
  | .opened b, outer =>
    cases hdrop : text.dropWhile isBlank with
    | nil =>
      rw [skipAt, run_blanks_of_nil hdrop, (runSkip_of_blanks hdrop outer b).2.1]
      rfl
    | cons c rest =>
      rw [skipAt, run_blanks_of_cons hdrop, runSkip_opened hdrop]
      dsimp only
      split
      next => rfl
      next => exact (run_passItems b outer _).symm
  | .after, [] =>
    rw [runSkip]
    rfl
  | .after, b :: outer =>
    cases hdrop : text.dropWhile isBlank with
    | nil =>
      rw [skipAt, run_blanks_of_nil hdrop, (runSkip_of_blanks hdrop outer b).2.2]
      rfl
    | cons c rest =>
      rw [skipAt, run_blanks_of_cons hdrop, runSkip_after hdrop]
      dsimp only
      split
      next => exact (run_passItems b outer _).symm
      next => split <;> rfl

theorem stops_passScalar (hs : s.IsOutside) {c : Char} :
    passScalar.Stops back s (c :: left) Outside Always := by
  refine stops_peek ⟨.endInValue, rfl, rfl⟩ fun d left' heq => ?_
  obtain ⟨rfl, rfl⟩ := List.cons.inj heq
  split
  next => exact (stops_keyword hs (by simp)).always
  next => exact (stops_keyword hs (by simp)).always
  next => exact (stops_keyword hs (by simp)).always
  next heq =>
    cases heq
    refine stops_advance ?_
    rw [Spot.next_quote hs]
    exact stops_passString.always
  next heq =>
    cases heq
    split
    next hc => exact stops_passNumeral hs hc
    next => exact stops_fail _
  next heq => cases heq

theorem stops_passLabel (b : Bracket) (hs : s.IsOutside) :
    (passLabel b).Stops back s front Outside Never := by
  cases b with
  | list => exact stops_pure hs
  | object =>
    refine stops_blanks hs ⟨.endInObject, rfl, rfl⟩ fun s' c left hs' _ => ?_
    split
    next heq =>
      cases heq
      refine stops_advance ?_
      rw [Spot.next_quote hs']
      exact stops_passString.bind (fun _ _ _ _ h => stops_colon h) nofun
    next => exact stops_fail _
    next heq => cases heq

theorem closing_ne_quote (b : Bracket) : b.closing ≠ '"' := by
  cases b <;> decide

theorem category_endError (b : Bracket) : b.endError.category = .endOfText := by
  cases b <;> rfl

theorem endsText_skipAfter (b : Bracket) (outer : List Bracket) :
    (skipFrom .after (b :: outer)).EndsText :=
  ⟨b.endError, run_skipFrom .after (b :: outer) [], category_endError b⟩

/-- By induction on what is left of the front. An item of a list is passed over from where
it is met, so the places count too. -/
theorem stops_skipFrom (place : Place) (outer : List Bracket) (hs : s.IsOutside) :
    (skipFrom place outer).Stops back s front Outside Always := by
  induction hsize : 3 * front.length + place.rank using Nat.strongRecOn
    generalizing place outer s front with
  | ind n ih =>
    -- A label may be empty, but it leaves no more of the front than there was.
    have hlabel : ∀ {s' : Spot} {left : List Char} (b : Bracket) (outer : List Bracket),
        s'.IsOutside → 3 * left.length + Place.value.rank < n →
        (do
          passLabel b
          skipFrom .value (b :: outer) : Reader Unit).Stops back s' left Outside Always := by
      intro s' left b outer hs' hless
      refine (stops_passLabel b hs').bind (fun _ used left' hleft h => ?_) nofun
      refine ih _ (Nat.lt_of_le_of_lt ?_ hless) .value (b :: outer) h rfl
      rw [hleft, List.length_append]
      omega
    refine Stops.of_run_eq ?_ (run_skipFrom place outer)
    cases place with
    | value =>
      refine stops_blanks hs ⟨.endInValue, rfl, rfl⟩ fun s' c left hs' hlength => ?_
      have hless : 3 * left.length + 2 < n := by
        rw [← hsize, Place.rank]
        omega
      dsimp only
      split
      next hc =>
        exact stops_advance (ih _ hless (.opened .list) outer
          (Spot.isOutside_next_of_eq hs' hc (by decide)) rfl)
      next =>
        split
        next hc =>
          exact stops_advance (ih _ hless (.opened .object) outer
            (Spot.isOutside_next_of_eq hs' hc (by decide)) rfl)
        next =>
          refine (stops_passScalar hs').bind (fun _ used left' hleft h => ?_) fun _ _ _ => ?_
          · -- Here the place behind a value ranks below the value.
            refine ih _ ?_ .after outer h rfl
            have hsplit := congrArg List.length hleft
            rw [List.length_append, List.length_cons] at hsplit
            rw [← hsize, Place.rank, Place.rank]
            omega
          · cases outer with
            | nil => exact .of_ok (run_skipFrom .after [] []) fun _ => trivial
            | cons b outer => exact (endsText_skipAfter b outer).cutsTo
    | opened b =>
      refine stops_blanks hs ⟨_, rfl, category_endError b⟩ fun s' c left hs' hlength => ?_
      dsimp only
      split
      next hc =>
        refine stops_advance (ih _ ?_ .after outer
          (Spot.isOutside_next_of_eq hs' hc (closing_ne_quote b)) rfl)
        rw [← hsize, Place.rank, Place.rank]
        omega
      next =>
        refine hlabel b outer hs' ?_
        rw [← hsize, Place.rank, Place.rank, List.length_cons]
        omega
    | after =>
      cases outer with
      | nil => exact stops_pure hs
      | cons b outer =>
        refine stops_blanks hs ⟨_, rfl, category_endError b⟩ fun s' c left hs' hlength => ?_
        have hless : 3 * left.length + 2 < n := by
          rw [← hsize, Place.rank]
          omega
        dsimp only
        split
        next hc =>
          refine stops_advance (hlabel b outer (Spot.isOutside_next_of_eq hs' hc (by decide)) ?_)
          exact Nat.lt_of_le_of_lt (Nat.add_le_add_left (by decide) _) hless
        next =>
          split
          next hc =>
            refine stops_advance (ih _ (Nat.lt_of_le_of_lt ?_ hless) .after outer
              (Spot.isOutside_next_of_eq hs' hc (closing_ne_quote b)) rfl)
            exact Nat.add_le_add_left (by decide) _
          next => exact stops_fail _

theorem stops_passValue (hs : s.IsOutside) :
    passValue.Stops back s front Outside Always :=
  stops_skipFrom .value [] hs

/-! ## Structures -/

theorem stops_readMember (key : List Char) (h : ∀ f ∈ fields, f.codec.StopsAtCuts)
    (slots : Slots fields) (hs : s.IsOutside) :
    (slots.readMember key).Stops back s front Outside Always := by
  induction fields generalizing s front with
  | nil =>
    refine (stops_colon hs).bind (fun _ _ _ _ h => ?_) nofun
    exact (stops_passValue h).bind (fun _ _ _ _ h => stops_pure h) fun _ _ _ => .pure trivial
  | cons f fs ih =>
    obtain ⟨slot, slots⟩ := slots
    unfold Slots.readMember
    split
    next =>
      split
      next => exact stops_fail _
      next =>
        refine (stops_colon hs).bind (fun _ _ _ _ hs' => ?_) nofun
        exact ((h f (List.mem_cons_self ..)).stops hs').bind (fun _ _ _ _ hs'' => stops_pure hs'')
          fun _ _ _ => .pure trivial
    next =>
      exact (ih (fun g hg => h g (List.mem_cons_of_mem _ hg)) slots hs).bind
        (fun _ _ _ _ h => stops_pure h) fun _ _ _ => .pure trivial

theorem run_membersInto (slots : Slots fields) (text : List Char) :
    (membersInto slots).run text = (do
      let slots ← member slots
      blanks
      match ← peek with
      | none => fail .endInObject
      | some c =>
        if c = '}' then
          advance
          pure slots
        else if c = ',' then
          advance
          blanks
          match ← peek with
          | none => fail .endInValue
          | some d =>
            if d = '"' then
              advance
              membersInto slots
            else if d = '}' then fail .trailingComma
            else fail .keyNotString
        else fail .objectSeparatorExpected : Reader (Slots fields)).run text := by
  show runMembers slots text = _
  rw [runMembers]
  split
  next e hmember => exact (run_bind_of_error hmember).symm
  next slots' behind hmember =>
    rw [run_bind_of_ok hmember]
    split
    next hdrop =>
      rw [run_blanks_of_nil hdrop]
      rfl
    next c rest hdrop =>
      refine Eq.trans ?_ (run_blanks_of_cons hdrop).symm
      dsimp only
      split
      next => rfl
      next =>
        split
        next =>
          rw [run_bind_of_ok (run_advance _), List.tail_cons]
          split
          next hdrop' =>
            rw [run_blanks_of_nil hdrop']
            rfl
          next d rest' hdrop' =>
            refine Eq.trans ?_ (run_blanks_of_cons hdrop').symm
            dsimp only
            split
            next => rfl
            next => split <;> rfl
        next => rfl

/-- By induction on what is left of the front: each member begins behind a comma. -/
theorem stops_membersInto (h : ∀ f ∈ fields, f.codec.StopsAtCuts) (slots : Slots fields) :
    (membersInto slots).Stops back .string front Outside Never := by
  induction hlength : front.length using Nat.strongRecOn generalizing front slots with
  | ind n ih =>
    refine Stops.of_run_eq ?_ (run_membersInto slots)
    have hmember : (member slots).Stops back .string front Outside Always := by
      exact stops_stringContent.bind (fun key _ _ _ hs => stops_readMember key h slots hs) nofun
    refine hmember.bind (fun slots' used left hfront hs => ?_) fun _ _ _ => ?_
    · refine stops_blanks hs ⟨.endInObject, rfl, rfl⟩ fun s' c left' hs' hless => ?_
      dsimp only
      split
      next hc =>
        exact stops_advance (stops_pure (Spot.isOutside_next_of_eq hs' hc (by decide)))
      next =>
        split
        next hc =>
          refine stops_advance (stops_blanks (Spot.isOutside_next_of_eq hs' hc (by decide))
            ⟨.endInValue, rfl, rfl⟩ fun s'' d left'' hs'' hless' => ?_)
          dsimp only
          split
          next hd =>
            refine stops_advance ?_
            rw [hd, Spot.next_quote hs'']
            refine ih left''.length ?_ slots' rfl
            rw [← hlength, hfront, List.length_append]
            omega
          next => split <;> exact stops_fail _
        next => exact stops_fail _
    · exact EndsText.cutsTo ⟨.endInObject, rfl, rfl⟩

theorem stops_members (h : ∀ f ∈ fields, f.codec.StopsAtCuts) (hs : s.IsOutside) :
    (members fields).Stops back s front Outside Never := by
  refine stops_blanks hs ⟨.endInObject, rfl, rfl⟩ fun s' c left hs' _ => ?_
  split
  next heq => cases heq
  next heq =>
    cases heq
    exact stops_advance (stops_pure (Spot.isOutside_next hs' (by decide)))
  next heq =>
    cases heq
    refine stops_advance ?_
    rw [Spot.next_quote hs']
    exact stops_membersInto h _
  next => exact stops_fail _

/-- Where a list is cut within a value, it ends, or nothing more is asked of it. -/
theorem cutsTo_listedFields (tooShort : Nat → DecodeError) (index : Nat) :
    (listedFields tooShort fields index).CutsTo (listedFields tooShort fields index) Always := by
  cases fields with
  | nil => exact .of_ok rfl fun _ => trivial
  | cons f fs => exact ((endsText_nextElement _).bind _).cutsTo

theorem stops_listedFields (tooShort : Nat → DecodeError)
    (h : ∀ f ∈ fields, f.codec.StopsAtCuts) (index : Nat) (hs : s.IsOutside) :
    (listedFields tooShort fields index).Stops back s front Outside Always := by
  induction fields generalizing s front index with
  | nil => exact stops_pure hs
  | cons f fs ih =>
    have hrow : ∀ {x : Reader f.Value} {left : List Char} {s' : Spot},
        x.Stops back s' left Outside Always →
        (do
          let value ← x
          let row ← listedFields tooShort fs (index + 1)
          pure (value, row) : Reader (Row (f :: fs))).Stops back s' left Outside Always := by
      intro x left s' hvalue
      refine hvalue.bind (fun value _ _ _ hs'' => ?_) fun _ _ _ => ?_
      · exact (ih (fun g hg => h g (List.mem_cons_of_mem f hg)) _ hs'').bind
          (fun _ _ _ _ h => stops_pure h) fun _ _ _ => .pure trivial
      · exact (cutsTo_listedFields tooShort _).bind fun _ _ _ => .pure trivial
    refine (stops_nextElement _ hs).bind (fun more _ _ _ hs' => ?_) nofun
    dsimp only
    split
    next => exact hrow ((h f (List.mem_cons_self ..)).stops hs')
    next =>
      split
      next => exact hrow (stops_pure hs')
      next => exact hrow (stops_fail _)

/-- A structure is read only if its bracket is closed. -/
theorem stops_record (title : String) (h : ∀ f ∈ fields, f.codec.StopsAtCuts) (hs : s.IsOutside) :
    (record title fields).Stops back s front Outside Never := by
  refine stops_valueStart hs fun s' c left hs' _ => ?_
  split
  next hc =>
    have hopened : (s'.next c).IsOutside := Spot.isOutside_next_of_eq hs' hc (by decide)
    refine stops_advance ((stops_members h hopened).bind (fun slots _ _ _ h => ?_) nofun)
    cases slots.complete with
    | error e => exact stops_fail e
    | ok row => exact stops_pure h
  next =>
    split
    next hc =>
      have hopened : (s'.next c).IsOutside := Spot.isOutside_next_of_eq hs' hc (by decide)
      refine stops_advance ((stops_listedFields _ h 0 hopened).bind (fun row _ _ _ h => ?_)
        fun _ _ _ => (endsText_closeList.bind _).cutsTo)
      exact (stops_closeList h).bind (fun _ _ _ _ h => stops_pure h) nofun
    next => exact (refuses_mismatch c _).stops

end Reader

/-! ## Documents -/

namespace Codec

open Reader

variable {α : Type} {title : String} {fields : List Field} {toRow : α → Row fields}
  {ofRow : Row fields → α}

theorem stops_reader_record {back : List Char} {s : Spot} {front : List Char}
    (h : ∀ f ∈ fields, f.codec.StopsAtCuts) (hs : s.IsOutside) :
    (record title fields toRow ofRow).reader.Stops back s front Outside Never :=
  (stops_record title h hs).bind (fun _ _ _ _ h => stops_pure h) nofun

theorem stopsAtCuts_record (h : ∀ f ∈ fields, f.codec.StopsAtCuts) :
    (record title fields toRow ofRow).StopsAtCuts where
  stops hs := (stops_reader_record h hs).always
  endsText := (endsText_valueStart.bind _).bind _

/-- Whatever is left in front of a cut of a document is refused, and never for what it
says: the text ends, unless it is cut within a numeral. A document may be followed by
blanks, so it has to end in something else. -/
def RefusesFronts (codec : Codec α) : Prop :=
  ∀ (text : String) (a : α), codec.decode text = .ok a →
    (∀ c ∈ text.toList.getLast?, isBlank c = false) →
    ∀ front back, text.toList = front ++ back → back ≠ [] →
      ∃ e, codec.decode (.ofList front) = .error e ∧ e.category.name ≠ "data" ∧
        (¬CutsNumeral .between front back → e.category.name = "eof")

theorem exists_run_of_decode {x : Reader α} {text : List Char} {a : α}
    (h : x.decode text = .ok a) :
    ∃ rest, x.run text = .ok (a, rest) ∧ IsBlanks rest := by
  rw [Reader.decode, whole, run_bind] at h
  cases hx : x.run text with
  | error e => rw [hx] at h; cases h
  | ok out =>
    obtain ⟨b, rest⟩ := out
    rw [hx] at h
    cases hdrop : rest.dropWhile isBlank with
    | nil =>
      dsimp only at h
      rw [run_blanks_of_nil hdrop] at h
      cases h
      have hsplit := List.takeWhile_append_dropWhile (p := isBlank) (l := rest)
      rw [hdrop, List.append_nil] at hsplit
      exact ⟨rest, rfl, hsplit ▸ List.all_eq_true.mp List.all_takeWhile⟩
    | cons c behind =>
      dsimp only at h
      rw [run_blanks_of_cons hdrop] at h
      cases h

theorem refusesFronts_record (h : ∀ f ∈ fields, f.codec.StopsAtCuts) :
    (record title fields toRow ofRow).RefusesFronts := by
  intro text a hdecode hlast front back htext hback
  rw [Codec.decode, htext] at hdecode
  obtain ⟨rest, hrun, hblanks⟩ := exists_run_of_decode hdecode
  have hstopped : (record title fields toRow ofRow).reader.Stopped back .between front
      Outside Never a rest := stops_reader_record h (.inl rfl) a rest hrun
  cases hstopped with
  | @behind used left hfront hrest hfrontRun hpost =>
    -- What stands behind the cut would be blank.
    obtain ⟨c, hc⟩ : ∃ c, back.getLast? = some c := ⟨_, List.getLast?_eq_some_getLast hback⟩
    have hfinal : isBlank c = false := hlast c (by rw [htext, List.getLast?_append, hc]; rfl)
    have hmem : c ∈ rest := by
      rw [hrest]
      exact List.mem_append_right _ (List.mem_of_getLast? hc)
    rw [hblanks c hmem] at hfinal
    cases hfinal
  | @refused e hfrontRun hkind =>
    refine ⟨e, ?_, ?_, ?_⟩
    · rw [Codec.decode, String.toList_ofList, Reader.decode, whole, run_bind_of_error hfrontRun]
      rfl
    · rcases hkind with hkind | ⟨hkind, -⟩ <;> (rw [hkind]; decide)
    · intro hnot
      rcases hkind with hkind | ⟨-, hcut⟩
      · rw [hkind]
        rfl
      · exact absurd hcut hnot
  | shortened _ _ hshort => exact hshort.elim

end Codec

end BoardHealth.Json
