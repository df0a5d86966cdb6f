import BoardHealth.Json.Codec
import BoardHealth.Proofs.Json.CutTokens

/-!
# Values that are cut

All codecs stop where the text is cut (`Codec.StopsAtCuts`): those of single values
because their tokens do, and those made of others because behind each of these they look
at the next character, and find the end.

> `stopsAtCuts_single`, `stopsAtCuts_word32`: values without brackets.
> `stopsAtCuts_optional`, `stopsAtCuts_vector`, `stopsAtCuts_bounded`: values made of others.
> `stopsAtCuts_choice`: enumerations.
-/

namespace BoardHealth.Json

namespace Reader

variable {α β : Type} {back : List Char} {s : Spot} {front left : List Char}

/-- Any value may come short. -/
def Always (_ _ : α) : Prop := True

theorem Stops.always {x : Reader α} {post : α → Spot → Prop}
    (h : x.Stops back s front post Never) : x.Stops back s front post Always :=
  h.imp (fun _ _ h => h) nofun

/-! ## In front of a value -/

/-- The reader refuses every text. -/
def Refuses (x : Reader α) : Prop := ∀ text, ∃ e, x.run text = .error e

theorem refuses_fail (e : DecodeError) : (fail e : Reader α).Refuses := fun _ => ⟨e, rfl⟩

theorem Refuses.bind_right {x : Reader α} {f : α → Reader β} (h : ∀ a, (f a).Refuses) :
    (x >>= f).Refuses := by
  intro text
  rw [run_bind]
  split
  next e _ => exact ⟨e, rfl⟩
  next a rest _ => exact h a rest

theorem Refuses.stops {x : Reader α} (h : x.Refuses) {post : α → Spot → Prop}
    {short : α → α → Prop} : x.Stops back s front post short := by
  intro a rest hrun
  obtain ⟨e, he⟩ := h (front ++ back)
  rw [he] at hrun
  cases hrun

section Steps

variable {post : α → Spot → Prop} {short : α → α → Prop}

theorem endsText_valueStart : valueStart.EndsText := ⟨.endInValue, rfl, rfl⟩

theorem stops_valueStart {f : Char → Reader α} (hs : s.IsOutside)
    (h : ∀ (s' : Spot) c left, s'.IsOutside → left.length < front.length →
      (f c).Stops back s' (c :: left) post short) :
    (valueStart >>= f).Stops back s front post short := by
  -- The reader looks at the next character itself, and passes it on.
  let g : Option Char → Reader α := fun o => o.elim (fail .endInValue) f
  have hblanks : (do
      blanks
      let o ← peek
      g o : Reader α).Stops back s front post short :=
    stops_blanks hs ⟨.endInValue, rfl, rfl⟩ fun s' c left hs' hlength => h s' c left hs' hlength
  refine hblanks.of_run_eq fun text => ?_
  cases htext : text.dropWhile isBlank with
  | nil =>
    have hstart : valueStart.run text = .error .endInValue := run_blanks_of_nil htext
    rw [run_blanks_of_nil htext, run_bind_of_error hstart]
    rfl
  | cons c rest =>
    have hstart : valueStart.run text = .ok (c, c :: rest) := run_blanks_of_cons htext
    rw [run_blanks_of_cons htext, run_bind_of_ok hstart]
    rfl

/-- The next character is the last that is read. -/
theorem stops_advance_last {post : Unit → Spot → Prop} {short : Unit → Unit → Prop} {c : Char}
    (h : post () (s.next c)) : advance.Stops back s (c :: left) post short :=
  .pass [c] (stops_pure h) fun _ => rfl

end Steps

theorem stops_colon (hs : s.IsOutside) : colon.Stops back s front Outside Never := by
  refine stops_blanks hs ⟨.endInObject, rfl, rfl⟩ fun s' c left hs' _ => ?_
  split
  next heq => cases heq
  next heq =>
    cases heq
    exact stops_advance_last (Spot.isOutside_next hs' (by decide))
  next => exact stops_fail _

/-! ## Values without brackets -/

theorem refuses_mismatch (c : Char) (expected : Shape) :
    (mismatch c expected : Reader α).Refuses := by
  rw [mismatch]
  repeat' split
  all_goals
    first
    | exact refuses_fail _
    | exact Refuses.bind_right fun _ => refuses_fail _
    | exact Refuses.bind_right fun _ => Refuses.bind_right fun _ => refuses_fail _

theorem stops_null (hs : s.IsOutside) : null.Stops back s front Outside Never := by
  refine stops_valueStart hs fun s' c left hs' _ => ?_
  split
  next => exact stops_keyword hs' (by simp)
  next => exact (refuses_mismatch c .null).stops

theorem stops_boolean (hs : s.IsOutside) : boolean.Stops back s front Outside Never := by
  refine stops_valueStart hs fun s' c left hs' _ => ?_
  split
  next =>
    exact (stops_keyword hs' (by simp)).bind (fun _ _ _ _ h => stops_pure h) nofun
  next =>
    split
    next =>
      exact (stops_keyword hs' (by simp)).bind (fun _ _ _ _ h => stops_pure h) nofun
    next => exact (refuses_mismatch c .boolean).stops

theorem stops_single (hs : s.IsOutside) : single.Stops back s front Outside Always := by
  refine stops_valueStart hs fun s' c left hs' _ => ?_
  split
  next hc =>
    exact (stops_number hs' hc).bind (fun _ _ _ _ h => stops_pure h) fun _ _ _ => .pure trivial
  next => exact (refuses_mismatch c .single).stops

/-- An integer that is cut stays in range. -/
theorem stops_word (limit : Nat) (shape : Shape) (hs : s.IsOutside) :
    (word limit shape).Stops back s front Outside Always := by
  refine stops_valueStart hs fun s' c left hs' _ => ?_
  split
  next hc =>
    refine (stops_number hs' hc).bind (fun n _ _ _ h => ?_) fun a b hshort => ?_
    · cases n with
      | integer n =>
        dsimp only
        split
        next => exact stops_pure h
        next => exact stops_fail _
      | real x => exact stops_fail _
    · intro text v rest hrun
      cases a with
      | real x => cases hrun
      | integer n =>
        dsimp only at hrun
        split at hrun
        next hrange =>
          obtain ⟨m, rfl, hnonneg, hle⟩ := hshort n rfl hrange.1
          refine .inr ⟨m.toNat, ?_, trivial⟩
          dsimp only
          rw [if_pos ⟨hnonneg, Int.lt_of_le_of_lt hle hrange.2⟩]
          rfl
        next => cases hrun
  next => exact (refuses_mismatch c shape).stops

/-! ## Values made of others -/

theorem stops_optional {item : Reader α} (hend : item.EndsText) (hs : s.IsOutside)
    (hitem : ∀ {s' : Spot} {front : List Char}, s'.IsOutside →
      item.Stops back s' front Outside Always) :
    (optional item).Stops back s front Outside Always := by
  refine stops_blanks hs ?_ fun s' c left hs' _ => ?_
  · exact hend.bind _
  · split
    next heq =>
      exact (stops_keyword hs' (by simp)).bind (fun _ _ _ _ h => stops_pure h) nofun
    next =>
      exact (hitem hs').bind (fun _ _ _ _ h => stops_pure h) fun _ _ _ => .pure trivial

theorem endsText_nextElement (first : Bool) : (nextElement first).EndsText :=
  ⟨.endInList, rfl, rfl⟩

theorem stops_nextElement (first : Bool) (hs : s.IsOutside) :
    (nextElement first).Stops back s front Outside Never := by
  refine stops_blanks hs ⟨.endInList, rfl, rfl⟩ fun s' c left hs' _ => ?_
  split
  next heq => cases heq
  next => exact stops_pure hs'
  next heq =>
    cases heq
    split
    next => exact stops_pure hs'
    next =>
      split
      next hc =>
        have hopened : (s'.next c).IsOutside := Spot.isOutside_next_of_eq hs' hc (by decide)
        refine stops_advance (stops_blanks hopened ⟨.endInValue, rfl, rfl⟩
          fun s'' d left' hs'' _ => ?_)
        split
        next heq => cases heq
        next => exact stops_fail _
        next => exact stops_pure hs''
      next => exact stops_fail _

theorem endsText_closeList : closeList.EndsText := ⟨.endInList, rfl, rfl⟩

theorem stops_closeList (hs : s.IsOutside) : closeList.Stops back s front Outside Never := by
  refine stops_blanks hs ⟨.endInList, rfl, rfl⟩ fun s' c left hs' _ => ?_
  split
  next heq => cases heq
  next heq =>
    cases heq
    exact stops_advance_last (Spot.isOutside_next hs' (by decide))
  next =>
    refine Refuses.stops (Refuses.bind_right fun _ => Refuses.bind_right fun _ =>
      Refuses.bind_right fun _ => ?_)
    split <;> exact refuses_fail _
  next => exact stops_fail _

/-- A list is read only if its bracket is closed. -/
theorem stops_closed {x : Reader α} (expected : Shape)
    (h : ∀ {s' : Spot} {left : List Char}, s'.IsOutside → x.Stops back s' left Outside Always)
    (hs : s.IsOutside) :
    (do
      let c ← valueStart
      if c = '[' then
        advance
        let a ← x
        closeList
        pure a
      else mismatch c expected : Reader α).Stops back s front Outside Never := by
  refine stops_valueStart hs fun s' c left hs' _ => ?_
  split
  next hc =>
    have hopened : (s'.next c).IsOutside := Spot.isOutside_next_of_eq hs' hc (by decide)
    refine stops_advance ((h hopened).bind (fun a _ _ _ hs'' => ?_) fun _ _ _ => ?_)
    -- Be the cut behind the last item or within it, the bracket is not found.
    · exact (stops_closeList hs'').bind (fun _ _ _ _ h => stops_pure h) nofun
    · exact (endsText_closeList.bind _).cutsTo
  next => exact (refuses_mismatch c expected).stops

section Lists

variable {item : Reader α} (hitem : ∀ {s' : Spot} {front : List Char}, s'.IsOutside →
  item.Stops back s' front Outside Always)

/-- Where a list is cut within an item, it ends, or nothing more is asked of it. -/
theorem cutsTo_elements (size left : Nat) :
    (elements item size left).CutsTo (elements item size left) Always := by
  cases left with
  | zero => exact .of_ok rfl fun _ => trivial
  | succ left => exact ((endsText_nextElement _).bind _).cutsTo

include hitem

theorem stops_elements (size left : Nat) (hs : s.IsOutside) :
    (elements item size left).Stops back s front Outside Always := by
  induction left generalizing s front with
  | zero => exact stops_pure hs
  | succ left ih =>
    refine (stops_nextElement _ hs).bind (fun more _ _ _ h => ?_) nofun
    split
    next =>
      refine (hitem h).bind (fun a _ _ _ h => ?_) fun a b _ => ?_
      · exact (ih h).bind (fun _ _ _ _ h => stops_pure h) fun _ _ _ => .pure trivial
      · exact (cutsTo_elements size left).bind fun _ _ _ => .pure trivial
    next => exact stops_fail _

theorem stops_vector (size : Nat) (hs : s.IsOutside) :
    (vector item size).Stops back s front Outside Never :=
  stops_closed (.vector size) (stops_elements hitem size size) hs

theorem stops_elementsUpTo (bound room : Nat) (hs : s.IsOutside) :
    (elementsUpTo item bound room).Stops back s front Outside Always := by
  induction room generalizing s front with
  | zero =>
    refine (stops_nextElement _ hs).bind (fun more _ _ _ h => ?_) nofun
    split
    next => exact Refuses.stops (Refuses.bind_right fun _ => refuses_fail _)
    next => exact stops_pure h
  | succ room ih =>
    refine (stops_nextElement _ hs).bind (fun more _ _ _ h => ?_) nofun
    split
    next =>
      refine (hitem h).bind (fun a _ _ _ h => ?_) fun a b _ => ?_
      · exact (ih h).bind (fun _ _ _ _ h => stops_pure h) fun _ _ _ => .pure trivial
      · have hend : (elementsUpTo item bound room).EndsText := by
          cases room <;> exact (endsText_nextElement _).bind _
        exact (hend.bind _).cutsTo
    next => exact stops_pure h

theorem stops_bounded (bound : Nat) (hs : s.IsOutside) :
    (bounded item bound).Stops back s front Outside Never :=
  stops_closed .list (stops_elementsUpTo hitem bound bound) hs

end Lists

theorem stops_named (all : List α) (name : α → String) (found : List Char) (hs : s.IsOutside) :
    (named all name found).Stops back s front Outside Never := by
  rw [named]
  split
  next => exact stops_pure hs
  next => exact stops_fail _

/-- A name is looked up only if it is closed. -/
theorem stops_choice (all : List α) (name : α → String) (hs : s.IsOutside) :
    (choice all name).Stops back s front Outside Never := by
  refine stops_valueStart hs fun s' c left hs' _ => ?_
  split
  next hc =>
    refine stops_advance ?_
    rw [hc, Spot.next_quote hs']
    exact stops_stringContent.bind (fun found _ _ _ h => stops_named all name found h) nofun
  next =>
    split
    next hc =>
      have hopened : (s'.next c).IsOutside := Spot.isOutside_next_of_eq hs' hc (by decide)
      refine stops_advance (stops_blanks hopened ⟨.endInObject, rfl, rfl⟩
        fun s'' d left' hs'' _ => ?_)
      split
      next heq => cases heq
      next => exact stops_fail _
      next heq =>
        cases heq
        refine stops_advance ?_
        rw [Spot.next_quote hs'']
        refine stops_stringContent.bind (fun found _ _ _ h => ?_) nofun
        refine (stops_named all name found h).bind (fun a _ _ _ h => ?_) nofun
        refine (stops_colon h).bind (fun _ _ _ _ h => ?_) nofun
        refine (stops_null h).bind (fun _ _ _ _ h => ?_) nofun
        refine stops_blanks h ⟨.endInObject, rfl, rfl⟩ fun s₃ e left₃ hs₃ _ => ?_
        split
        next heq => cases heq
        next heq =>
          cases heq
          exact stops_advance (stops_pure (Spot.isOutside_next hs₃ (by decide)))
        next => exact stops_fail _
      next => exact stops_fail _
    next => exact stops_fail _

end Reader

/-! ## Codecs -/

/-- The codec stops where the text is cut, and reads nothing from the empty text. -/
structure Codec.StopsAtCuts {α : Type} (codec : Codec α) : Prop where
  stops : ∀ {back : List Char} {s : Spot} {front : List Char}, s.IsOutside →
    codec.reader.Stops back s front Reader.Outside Reader.Always
  endsText : codec.reader.EndsText

namespace Codec

open Reader

variable {α : Type}

theorem stopsAtCuts_boolean : boolean.StopsAtCuts where
  stops hs := (stops_boolean hs).always
  endsText := endsText_valueStart.bind _

theorem stopsAtCuts_single : single.StopsAtCuts where
  stops hs := stops_single hs
  endsText := endsText_valueStart.bind _

theorem stopsAtCuts_word32 : word32.StopsAtCuts where
  stops hs := (stops_word _ _ hs).bind (fun _ _ _ _ h => stops_pure h) fun _ _ _ => .pure trivial
  endsText := (endsText_valueStart.bind _).bind _

theorem stopsAtCuts_word64 : word64.StopsAtCuts where
  stops hs := (stops_word _ _ hs).bind (fun _ _ _ _ h => stops_pure h) fun _ _ _ => .pure trivial
  endsText := (endsText_valueStart.bind _).bind _

theorem stopsAtCuts_optional {item : Codec α} (h : item.StopsAtCuts) :
    (optional item).StopsAtCuts where
  stops hs := stops_optional h.endsText hs h.stops
  endsText := h.endsText.bind _

theorem stopsAtCuts_vector {item : Codec α} (h : item.StopsAtCuts) (size : Nat) :
    (vector item size).StopsAtCuts where
  stops hs := (stops_vector h.stops size hs).always
  endsText := endsText_valueStart.bind _

theorem stopsAtCuts_bounded {item : Codec α} (h : item.StopsAtCuts) (bound : Nat) :
    (bounded item bound).StopsAtCuts where
  stops hs := (stops_bounded h.stops bound hs).always
  endsText := endsText_valueStart.bind _

theorem stopsAtCuts_choice (all : List α) (name : α → String) :
    (choice all name).StopsAtCuts where
  stops hs := (stops_choice all name hs).always
  endsText := endsText_valueStart.bind _

end Codec

end BoardHealth.Json
