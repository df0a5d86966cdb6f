import BoardHealth.Json.Codec
import BoardHealth.Proofs.Json.Values

/-!
# Reading values without brackets

Truth values, numbers and integers are read from a value of their kind
(`takes_boolean`, `takes_single`, `takes_word`). A value of another kind is refused,
for its form or for its kind (`exists_run_mismatch`). So each of these readers makes
something of every value, be it a refusal, and never looks beyond it: this is
`Codec.TakesValues`.
-/

namespace BoardHealth.Json

namespace Reader

variable {α : Type}

/-- The first character of a value decides how it is read. -/
theorem takes_of_first {f : Char → Reader α} {c : Char} {cs : List Char}
    {out : Except DecodeError α} (hc : startsValue c = true)
    (hout : ∀ rest, Delimited rest → (f c).run (c :: cs ++ rest) = out.map (·, rest)) :
    (do let c ← valueStart; f c : Reader α).Takes (c :: cs) out := by
  intro blanks rest hblanks hrest
  rw [List.cons_append, run_bind_of_ok (run_valueStart hblanks hc)]
  exact hout rest hrest

theorem run_number {n : Numeral} {text rest : List Char} (h : IsNumeral n text)
    (hrest : Delimited rest) : number.run (text ++ rest) = n.value.map (·, rest) := by
  rw [number, run_bind_of_ok (run_numeral h hrest)]
  cases n.value <;> rfl

/-- What begins a numeral begins nothing else. -/
theorem ne_of_beginsNumeral {c : Char} (h : beginsNumeral c = true) :
    c ≠ 'n' ∧ c ≠ 't' ∧ c ≠ 'f' := by
  refine ⟨?_, ?_, ?_⟩ <;>
    · rintro rfl
      exact absurd h (by decide)

/-- A value of another kind is refused, if not for its form then for its kind. -/
theorem exists_run_mismatch {text : List Char} (h : IsValue text) (expected : Shape) :
    ∃ c cs e, text = c :: cs ∧ ∀ rest, Delimited rest →
      (mismatch c expected : Reader α).run (text ++ rest) = .error e := by
  cases h with
  | empty b =>
    cases b with
    | list => exact ⟨_, _, .wrongType .list expected, rfl, fun _ _ => rfl⟩
    | object => exact ⟨_, _, .wrongType .object expected, rfl, fun _ _ => rfl⟩
  | @filled b =>
    cases b with
    | list => exact ⟨_, _, .wrongType .list expected, rfl, fun _ _ => rfl⟩
    | object => exact ⟨_, _, .wrongType .object expected, rfl, fun _ _ => rfl⟩
  | scalar h =>
    cases h with
    | null => exact ⟨_, _, .wrongType .null expected, rfl, fun _ _ => rfl⟩
    | yes => exact ⟨_, _, .wrongType (.boolean true) expected, rfl, fun _ _ => rfl⟩
    | no => exact ⟨_, _, .wrongType (.boolean false) expected, rfl, fun _ _ => rfl⟩
    | @string body h =>
      obtain ⟨out, hout⟩ := exists_run_stringContent h
      have hrun : ∀ rest, (mismatch '"' expected : Reader α).run ('"' :: (body ++ ['"']) ++ rest) =
          (do let content ← stringContent
              fail (.wrongType (.string content) expected) : Reader α).run
            (body ++ '"' :: rest) := by
        intro rest
        rw [List.cons_append, List.append_assoc]
        rfl
      cases out with
      | error e =>
        exact ⟨_, _, e, rfl, fun rest _ => (hrun rest).trans (run_bind_of_error (hout rest))⟩
      | ok content =>
        exact ⟨_, _, .wrongType (.string content) expected, rfl, fun rest _ =>
          (hrun rest).trans (run_bind_of_ok (hout rest))⟩
    | @number n _ h =>
      obtain ⟨c, cs, rfl, hc⟩ := h.exists_cons
      obtain ⟨hnull, hyes, hno⟩ := ne_of_beginsNumeral hc
      have hrun : ∀ rest, Delimited rest → (do
            let n ← number
            fail (.wrongType n.found expected) : Reader α).run (c :: cs ++ rest) =
          match n.value with
          | .error e => .error e
          | .ok v => .error (.wrongType v.found expected) := by
        intro rest hrest
        rw [run_bind, run_number h hrest]
        cases n.value <;> rfl
      refine ⟨c, cs, match n.value with
        | .error e => e
        | .ok v => .wrongType v.found expected, rfl, fun rest hrest => ?_⟩
      rw [mismatch, if_neg hnull, if_neg hyes, if_neg hno, if_pos hc, hrun rest hrest]
      cases n.value <;> rfl

/-! ## Values of the right kind -/

theorem takes_boolean (b : Bool) :
    boolean.Takes ((Document.boolean b).write .compact 0) (.ok b) := by
  cases b with
  | true => exact takes_of_first rfl fun rest _ =>
      (run_bind_of_ok (run_keyword ['t', 'r', 'u', 'e'] rest)).trans rfl
  | false => exact takes_of_first rfl fun rest _ =>
      (run_bind_of_ok (run_keyword ['f', 'a', 'l', 's', 'e'] rest)).trans rfl

/-- A number is the one nearest to what the numeral stands for. -/
theorem takes_single {n : Numeral} {text : List Char} (h : IsNumeral n text) :
    single.Takes text (n.value.map Number.toSingle) := by
  have hnumber : ∀ rest, Delimited rest → number.run (text ++ rest) = n.value.map (·, rest) :=
    fun _ hrest => run_number h hrest
  obtain ⟨c, cs, rfl, hc⟩ := h.exists_cons
  refine takes_of_first (by rw [startsValue, hc, Bool.or_true]) fun rest hrest => ?_
  rw [if_pos hc, run_bind, hnumber rest hrest]
  cases n.value <;> rfl

/-- What an integer from 0 up to a limit is read as. -/
def wordValue (limit : Nat) (shape : Shape) : Number → Except DecodeError Nat
  | .integer n => if 0 ≤ n ∧ n < limit then .ok n.toNat else .error (.outOfRange n shape)
  | .real x => .error (.wrongType (.real x) shape)

/-- An integer is read if it is in range. -/
theorem takes_word {n : Numeral} {text : List Char} (h : IsNumeral n text) (limit : Nat)
    (shape : Shape) : (word limit shape).Takes text (n.value >>= wordValue limit shape) := by
  have hnumber : ∀ rest, Delimited rest → number.run (text ++ rest) = n.value.map (·, rest) :=
    fun _ hrest => run_number h hrest
  obtain ⟨c, cs, rfl, hc⟩ := h.exists_cons
  refine takes_of_first (by rw [startsValue, hc, Bool.or_true]) fun rest hrest => ?_
  rw [if_pos hc, run_bind, hnumber rest hrest]
  cases n.value with
  | error e => rfl
  | ok v =>
    cases v with
    | real x => rfl
    | integer i =>
      show (if _ then _ else _ : Reader Nat).run rest = Except.map _ (if _ then _ else _)
      split <;> rfl

/-! ## Any value -/

/-- A reader makes something of a value that it does not read. -/
theorem exists_takes_of_mismatch {f : Char → Reader α} {text : List Char}
    (h : IsValue text) (expected : Shape)
    (hf : ∀ c cs, text = c :: cs → f c = mismatch c expected) :
    ∃ out, (do let c ← valueStart; f c : Reader α).Takes text out := by
  obtain ⟨c, cs, e, rfl, hrun⟩ := exists_run_mismatch (α := α) h expected
  obtain ⟨d, ds, heq, hd⟩ := h.exists_cons
  obtain ⟨rfl, rfl⟩ := List.cons.inj heq
  refine ⟨.error e, takes_of_first hd fun rest hrest => ?_⟩
  rw [hf c cs rfl]
  exact hrun rest hrest

/-- What the readers of numbers make of a value that is no numeral. -/
theorem exists_takes_of_not_numeral {item : Reader α} {text : List Char} {expected : Shape}
    (h : IsValue text)
    (hnumeral : ∀ n, IsNumeral n text → ∃ out, (do
      let c ← valueStart
      if beginsNumeral c then item else mismatch c expected : Reader α).Takes text out) :
    ∃ out, (do
      let c ← valueStart
      if beginsNumeral c then item else mismatch c expected : Reader α).Takes text out := by
  have hother : (∀ c cs, text = c :: cs → beginsNumeral c = false) → ∃ out, (do
      let c ← valueStart
      if beginsNumeral c then item else mismatch c expected : Reader α).Takes text out := by
    intro hfirst
    refine exists_takes_of_mismatch h expected fun c cs heq => ?_
    rw [hfirst c cs heq]
    rfl
  cases h with
  | scalar h =>
    cases h with
    | number h => exact hnumeral _ h
    | null | yes | no | string => exact hother fun c cs heq => by cases heq; rfl
  | empty b => cases b <;> exact hother fun c cs heq => by cases heq; rfl
  | @filled b => cases b <;> exact hother fun c cs heq => by cases heq; rfl

theorem exists_takes_boolean {text : List Char} (h : IsValue text) :
    ∃ out, boolean.Takes text out := by
  have hother : (∀ c cs, text = c :: cs → c ≠ 't' ∧ c ≠ 'f') → ∃ out, boolean.Takes text out := by
    intro hfirst
    refine exists_takes_of_mismatch h .boolean fun c cs heq => ?_
    rw [if_neg (hfirst c cs heq).1, if_neg (hfirst c cs heq).2]
  cases h with
  | scalar h =>
    cases h with
    | yes => exact ⟨_, takes_boolean true⟩
    | no => exact ⟨_, takes_boolean false⟩
    | number h =>
      refine hother ?_
      rintro c cs rfl
      obtain ⟨d, ds, heq, hd⟩ := h.exists_cons
      obtain ⟨rfl, rfl⟩ := List.cons.inj heq
      exact (ne_of_beginsNumeral hd).2
    | null | string => exact hother fun c cs heq => by cases heq; decide
  | empty b => cases b <;> exact hother fun c cs heq => by cases heq; decide
  | @filled b => cases b <;> exact hother fun c cs heq => by cases heq; decide

theorem exists_takes_single {text : List Char} (h : IsValue text) :
    ∃ out, single.Takes text out :=
  exists_takes_of_not_numeral h fun _ hn => ⟨_, takes_single hn⟩

theorem exists_takes_word {text : List Char} (h : IsValue text) (limit : Nat) (shape : Shape) :
    ∃ out, (word limit shape).Takes text out :=
  exists_takes_of_not_numeral h fun _ hn => ⟨_, takes_word hn limit shape⟩

end Reader

namespace Codec

/-- The reader makes something of every value, be it a refusal, and does not look beyond
it. -/
def TakesValues {α : Type} (codec : Codec α) : Prop :=
  ∀ text, IsValue text → codec.reader.Takes text (codec.reader.decode text)

theorem takesValues_boolean : boolean.TakesValues := fun _ h =>
  .of_exists (Reader.exists_takes_boolean h)

theorem takesValues_single : single.TakesValues := fun _ h =>
  .of_exists (Reader.exists_takes_single h)

theorem takesValues_word32 : word32.TakesValues := by
  intro text h
  obtain ⟨out, hout⟩ := Reader.exists_takes_word h UInt32.size .word32
  exact .of_exists ⟨_, hout.map UInt32.ofNat⟩

end Codec

end BoardHealth.Json
