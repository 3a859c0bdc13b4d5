import Darkroom.Proofs.Json.Numbers
import Darkroom.Proofs.Json.Reading
import Darkroom.Proofs.Json.Texts
import Mathlib.Data.List.Forall2

/-!
# Lists and Tables are Read Back

A list that is written as JSON is read back when its items are, and a table when its values are.

Being read back is a property of a text and a value, for every text that may follow, with a step for
each of its characters twice and room for as many brackets as it has characters. It passes from
parts to the whole, since no part is as long as the whole. Lists and tables differ in their brackets
and in how one part is read; the blanks around the parts and the commas between them are the same
for both.

## Main definitions

* `Json.ReadsBack`: A text is read as a value.
* `Json.ReadsEntry`: A part of a table is read as an entry.
* `Json.insertAll`: Entries as a table holds them when they are read.

## Theorems

* `Json.readsBack_real`, `Json.readsBack_whole`, `Json.readsBack_text`: What has no brackets.
* `Json.readsBack_bracketed`: What has brackets around parts that are read one by one.
* `Json.readsBack_items`, `Json.readsBack_table`: Lists and tables.
* `Json.ReadsBack.read_append`: A whole text is read as its value.
-/

namespace Darkroom

namespace Json

/-- Blanks. -/
def IsGap (cs : List Char) : Prop := ∀ c ∈ cs, isGap c = true

theorem skipGap_append {gap : List Char} (h : IsGap gap) (rest : List Char) :
    skipGap (gap ++ rest) = skipGap rest := List.dropWhile_append_of_pos h

/-- What begins with no blank is left as it is. -/
theorem skipGap_cons {c : Char} (h : isGap c = false) (rest : List Char) :
    skipGap (c :: rest) = c :: rest := List.dropWhile_cons_of_neg (by simp [h])

/-- A text that is read as a value, whatever follows that is no part of a number, as long as there
    are steps for all of its characters and room for its brackets. It begins with no blank, and not
    like the end of a list. -/
structure ReadsBack (text : List Char) (value : Value) : Prop where
  head : ∃ c tail, text = c :: tail ∧ isGap c = false ∧ c ≠ ']'
  reads : ∀ steps room rest, 2 * text.length < steps → text.length ≤ room → EndsNumber rest →
    readValue steps room (text ++ rest) = .ok (value, rest)

theorem ReadsBack.skipGap_append {text : List Char} {value : Value} (h : ReadsBack text value)
    (rest : List Char) : skipGap (text ++ rest) = text ++ rest := by
  rcases h.head with ⟨c, tail, rfl, hc, -⟩
  exact skipGap_cons hc _

theorem endsNumber_cons {c : Char} (h : c.isDigit = false ∧ c ≠ '.' ∧ c ≠ 'e' ∧ c ≠ 'E')
    (rest : List Char) : EndsNumber (c :: rest) := by
  intro d hd
  cases hd
  exact h

/-- What a bracket, a comma or a blank follows is complete. -/
theorem endsNumber_gap_append {gap rest : List Char} (hgap : IsGap gap)
    (hrest : EndsNumber rest) : EndsNumber (gap ++ rest) := by
  cases gap with
  | nil => exact hrest
  | cons c more =>
    have hc := hgap c List.mem_cons_self
    unfold isGap at hc
    simp only [Bool.or_eq_true, decide_eq_true_eq] at hc
    refine endsNumber_cons ?_ _
    rcases hc with ((rfl | rfl) | rfl) | rfl <;> decide

/-! ### Scalars -/

/-- A text that is no text, list or table is read as a word or a number. -/
theorem readValue_scalar {c : Char} (hquote : c ≠ '"') (hlist : c ≠ '[') (htable : c ≠ '\x7b')
    (steps room : ℕ) (rest : List Char) :
    readValue (steps + 1) room (c :: rest) = found (readScalar? (c :: rest)) := by
  unfold readValue
  split
  · rename_i heq
    cases heq
  · rename_i heq
    cases heq
    exact absurd rfl hquote
  · rename_i heq
    cases heq
    exact absurd rfl hlist
  · rename_i heq
    cases heq
    exact absurd rfl htable
  · rename_i heq _ _ _
    cases heq
    rfl

/-- What a word or a number may begin with: no blank, no quote and no bracket. -/
def BeginsScalar (c : Char) : Prop :=
  isGap c = false ∧ c ≠ '"' ∧ c ≠ '[' ∧ c ≠ ']' ∧ c ≠ '\x7b'

instance (c : Char) : Decidable (BeginsScalar c) := inferInstanceAs (Decidable (_ ∧ _))

theorem beginsScalar_of_isDigit {c : Char} (h : c.isDigit = true) : BeginsScalar c := by
  have hne : ∀ other : Char, other.isDigit = false → c ≠ other := by
    rintro other hother rfl
    rw [h] at hother
    cases hother
  refine ⟨?_, hne _ rfl, hne _ rfl, hne _ rfl, hne _ rfl⟩
  unfold isGap
  simp [hne ' ' rfl, hne '\t' rfl, hne '\n' rfl, hne '\r' rfl]

theorem readsBack_scalar {text : List Char} {value : Value}
    (hhead : ∃ c tail, text = c :: tail ∧ BeginsScalar c)
    (h : ∀ rest, EndsNumber rest → readScalar? (text ++ rest) = some (value, rest)) :
    ReadsBack text value := by
  rcases hhead with ⟨c, tail, rfl, hgap, hquote, hlist, hend, htable⟩
  refine ⟨⟨c, tail, rfl, hgap, hend⟩, fun steps room rest hsteps _ hrest => ?_⟩
  obtain ⟨steps, rfl⟩ : ∃ less, steps = less + 1 := ⟨steps - 1, by omega⟩
  rw [List.cons_append, readValue_scalar hquote hlist htable, ← List.cons_append, h rest hrest]
  rfl

/-- A sign and a digit are what a number begins with. -/
theorem beginsScalar_number (negative : Bool) {digits : List Char} {c : Char}
    (hc : digits.head? = some c) (hdigit : c.isDigit = true) :
    ∃ d tail, signText negative ++ digits = d :: tail ∧ BeginsScalar d := by
  cases negative with
  | true => exact ⟨'-', digits, rfl, by decide⟩
  | false =>
    cases digits with
    | nil => cases hc
    | cons d tail =>
      cases hc
      exact ⟨c, tail, rfl, beginsScalar_of_isDigit hdigit⟩

theorem readsBack_real (x : Double) : ReadsBack (realText x).toList (.real x) := by
  refine readsBack_scalar ?_ fun rest => readScalar_real x
  cases x with
  | nan => exact ⟨'N', _, rfl, by decide⟩
  | infinite negative =>
    cases negative with
    | false => exact ⟨'I', _, rfl, by decide⟩
    | true => exact ⟨'-', _, rfl, by decide⟩
  | finite negative m e h =>
    rcases Decimal.startsWithDigit_render .exact (Binary.shortest (.finite negative m e h)) with
      ⟨c, hc, hdigit⟩
    rw [toList_realText]
    exact beginsScalar_number negative hc hdigit

theorem readsBack_whole {n : ℤ} {text : String} (h : Value.wholeText n = .ok text) :
    ReadsBack text.toList (.whole n) := by
  refine readsBack_scalar ?_ fun rest => readScalar_whole h
  unfold Value.wholeText at h
  split_ifs at h
  cases h
  rcases (isWhole_decimalDigits n.natAbs).exists_cons with ⟨c, tail, hdigits, hdigit⟩
  rw [toList_toString]
  exact beginsScalar_number _ (by rw [hdigits]; rfl) hdigit

theorem readsBack_text (s : String) : ReadsBack (quotedText s).toList (.text (joinedText s)) := by
  rcases readText_quotedText s [] (Nat.lt_succ_self s.toList.length) with ⟨body, hbody, -⟩
  rw [List.append_nil] at hbody
  refine ⟨⟨'"', body, hbody, by decide, by decide⟩, fun steps room rest hsteps _ _ => ?_⟩
  obtain ⟨steps, rfl⟩ : ∃ less, steps = less + 1 := ⟨steps - 1, by omega⟩
  have hlength := length_lt_quotedText s
  rcases @readText_quotedText s rest (steps + 1) (by omega) with ⟨body, hbody, hread⟩
  rw [hbody]
  show found (Option.map _ (readText? (steps + 1) [] body)) = _
  rw [hread]
  rfl

/-! ### Lists -/

/-- Parts between brackets are separated by commas, with blanks here and there. -/
theorem toList_bracketed (layout : Layout) (depth : ℕ) (first last : String) {parts : List String}
    (h : parts ≠ []) : ∃ before between after, IsGap before ∧ IsGap between ∧ IsGap after ∧
      (bracketed layout depth first last parts).toList = first.toList ++ (before ++
        ((',' :: between).intercalate (parts.map String.toList) ++ (after ++ last.toList))) := by
  have hnewline (k : ℕ) : IsGap ("\n" ++ String.ofList (List.replicate (2 * k) ' ')).toList := by
    intro c hc
    rw [String.toList_append, String.toList_ofList, String.toList_ofList] at hc
    rcases List.mem_append.mp hc with hc | hc
    · rw [show c = '\n' by simpa using hc]
      rfl
    · rw [List.eq_of_mem_replicate hc]
      rfl
  unfold bracketed
  dsimp only
  rw [if_neg (by simpa using h)]
  by_cases hspreads : layout.spreads = true
  · refine ⟨_, _, _, hnewline (depth + 1), hnewline (depth + 1), hnewline depth, ?_⟩
    rw [if_pos hspreads]
    generalize "\n" ++ String.ofList (List.replicate (2 * (depth + 1)) ' ') = inner
    generalize "\n" ++ String.ofList (List.replicate (2 * depth) ' ') = outer
    simp only [String.toList_append, String.toList_intercalate, List.append_assoc]
    rfl
  · refine ⟨[], [' '], [], by simp [IsGap], by simp [IsGap, isGap], by simp [IsGap], ?_⟩
    rw [if_neg hspreads]
    simp only [String.toList_append, String.toList_intercalate, List.append_assoc]
    rfl

theorem toList_bracketed_nil (layout : Layout) (depth : ℕ) (first last : String) :
    (bracketed layout depth first last []).toList = first.toList ++ last.toList :=
  String.toList_append

/-- Parts with something between them begin with the first part. -/
theorem exists_intercalate_cons (sep part : List Char) (more : List (List Char)) :
    ∃ tail, sep.intercalate (part :: more) = part ++ tail := by
  cases more with
  | nil => exact ⟨[], by rw [List.intercalate_singleton, List.append_nil]⟩
  | cons next rest =>
    exact ⟨sep ++ sep.intercalate (next :: rest), by
      rw [List.intercalate_cons_cons, List.append_assoc]⟩

/-- So they begin with the first character of the first part. -/
theorem exists_head_intercalate {p : Char → Prop} (sep : List Char) {part : List Char}
    (h : ∃ c tail, part = c :: tail ∧ p c) (more : List (List Char)) :
    ∃ c tail, sep.intercalate (part :: more) = c :: tail ∧ p c := by
  rcases h with ⟨c, tail, rfl, hc⟩
  rcases exists_intercalate_cons sep (c :: tail) more with ⟨rest, hrest⟩
  exact ⟨c, tail ++ rest, hrest, hc⟩

/-- Blanks before the parts are skipped, and nothing more. -/
theorem skipGap_intercalate {gap : List Char} (hgap : IsGap gap) (sep : List Char)
    {part : List Char} {p : Char → Prop} (h : ∃ c tail, part = c :: tail ∧ isGap c = false ∧ p c)
    (more : List (List Char)) (rest : List Char) :
    skipGap (gap ++ (sep.intercalate (part :: more) ++ rest)) =
      sep.intercalate (part :: more) ++ rest := by
  rcases exists_head_intercalate sep h more with ⟨c, tail, hbody, hc, -⟩
  rw [skipGap_append hgap, hbody]
  exact skipGap_cons hc _

/-- What is left of brackets with something between them after the first bracket and its blanks. -/
theorem bracketed_append (layout : Layout) (depth : ℕ) (first last : String) {part : String}
    {p : Char → Prop} (h : ∃ c tail, part.toList = c :: tail ∧ isGap c = false ∧ p c)
    (more : List String) :
    ∃ between after, IsGap between ∧ IsGap after ∧
      first.toList.length + ((',' :: between).intercalate
          ((part :: more).map String.toList)).length + last.toList.length ≤
        (bracketed layout depth first last (part :: more)).toList.length ∧
      ∀ rest, ∃ cs,
        (bracketed layout depth first last (part :: more)).toList ++ rest = first.toList ++ cs ∧
        skipGap cs = (',' :: between).intercalate ((part :: more).map String.toList) ++
          (after ++ (last.toList ++ rest)) := by
  rcases toList_bracketed layout depth first last (List.cons_ne_nil part more) with
    ⟨before, between, after, hbefore, hbetween, hafter, htext⟩
  refine ⟨between, after, hbetween, hafter, ?_, fun rest =>
    ⟨_, ?_, skipGap_intercalate hbefore _ h _ _⟩⟩
  · rw [htext]
    simp only [List.length_append]
    omega
  · rw [htext]
    simp only [List.append_assoc, List.map_cons]

/-- Parts between brackets are read back when they are read one by one up to the last bracket, and
    nothing but blanks stands between the first bracket and them. -/
theorem readsBack_bracketed (layout : Layout) (depth : ℕ) {opening closing : String}
    {first last : Char} (hopening : opening.toList = [first]) (hclosing : closing.toList = [last])
    (hfirst : isGap first = false ∧ first ≠ ']') {parts : List String} {value : Value}
    {inner : ℕ → ℕ → List Char → Except Flaw (Value × List Char)}
    (hempty : parts = [] → ∀ steps room rest,
      readValue (steps + 1) (room + 1) (first :: last :: rest) = .ok (value, rest))
    (hhead : ∀ part ∈ parts.head?, ∃ c tail, part.toList = c :: tail ∧ isGap c = false ∧ c ≠ last)
    (hvalue : ∀ steps room cs result, (skipGap cs).head? ≠ some last →
      inner steps room (skipGap cs) = .ok result →
      readValue (steps + 1) (room + 1) (first :: cs) = .ok result)
    (hinner : parts ≠ [] → ∀ between after, IsGap between → IsGap after → ∀ steps room,
      2 * ((',' :: between).intercalate (parts.map String.toList)).length + 1 < steps →
      ((',' :: between).intercalate (parts.map String.toList)).length ≤ room → ∀ rest,
      inner steps room ((',' :: between).intercalate (parts.map String.toList) ++
        (after ++ last :: rest)) = .ok (value, rest)) :
    ReadsBack (bracketed layout depth opening closing parts).toList value := by
  cases parts with
  | nil =>
    rw [toList_bracketed_nil, hopening, hclosing]
    refine ⟨⟨first, [last], rfl, hfirst⟩, fun steps room rest hsteps hroom _ => ?_⟩
    change 2 ≤ room at hroom
    obtain ⟨steps, rfl⟩ : ∃ less, steps = less + 1 := ⟨steps - 1, by omega⟩
    obtain ⟨room, rfl⟩ : ∃ less, room = less + 1 := ⟨room - 1, by omega⟩
    exact hempty rfl steps room rest
  | cons part more =>
    rcases bracketed_append layout depth opening closing (hhead part rfl) more with
      ⟨between, after, hbetween, hafter, hlength, hrest⟩
    rcases exists_head_intercalate (',' :: between) (hhead part rfl) (more.map String.toList) with
      ⟨c, tail, hbody, -, hend⟩
    rw [hopening, hclosing] at hlength
    simp only [hopening, hclosing] at hrest
    change 1 + _ + 1 ≤ _ at hlength
    constructor
    · rcases hrest [] with ⟨cs, htext, -⟩
      rw [List.append_nil] at htext
      exact ⟨first, cs, htext, hfirst⟩
    · intro steps room rest hsteps hroom _
      obtain ⟨steps, rfl⟩ : ∃ less, steps = less + 1 := ⟨steps - 1, by omega⟩
      obtain ⟨room, rfl⟩ : ∃ less, room = less + 1 := ⟨room - 1, by omega⟩
      rcases hrest rest with ⟨cs, htext, hskip⟩
      rw [htext]
      show readValue (steps + 1) (room + 1) (first :: cs) = _
      -- What stands after the first bracket is no last bracket, so there are parts to be read.
      refine hvalue steps room cs _ ?_ ?_
      · rw [hskip, List.map_cons, hbody]
        exact fun heq => hend (Option.some.inj heq)
      · rw [hskip]
        exact hinner (List.cons_ne_nil _ _) between after hbetween hafter steps room (by omega)
          (by omega) rest

theorem readItems_last {steps room : ℕ} {taken : List Value} {cs rest tail : List Char}
    {value : Value} (h : readValue steps room cs = .ok (value, rest))
    (hrest : skipGap rest = ']' :: tail) :
    readItems (steps + 1) room taken cs = .ok (.items (taken.reverse ++ [value]), tail) := by
  unfold readItems
  refine ok_bind_iff.mpr ⟨(value, rest), h, ?_⟩
  dsimp only
  rw [hrest, List.reverse_cons]
  rfl

theorem readItems_more {steps room : ℕ} {taken : List Value} {cs rest tail : List Char}
    {value : Value} {result : Value × List Char}
    (h : readValue steps room cs = .ok (value, rest)) (hrest : skipGap rest = ',' :: tail)
    (hmore : readItems steps room (value :: taken) (skipGap tail) = .ok result) :
    readItems (steps + 1) room taken cs = .ok result := by
  unfold readItems
  refine ok_bind_iff.mpr ⟨(value, rest), h, ?_⟩
  dsimp only
  rw [hrest]
  exact hmore

/-- Items are read one by one up to the closing bracket. -/
theorem readItems_intercalate {between after : List Char} (hbetween : IsGap between)
    (hafter : IsGap after) {parts : List (List Char)} {values : List Value}
    (h : List.Forall₂ ReadsBack parts values) (hparts : parts ≠ []) {steps room : ℕ}
    (hsteps : 2 * ((',' :: between).intercalate parts).length + 1 < steps)
    (hroom : ((',' :: between).intercalate parts).length ≤ room) (taken : List Value)
    (rest : List Char) :
    readItems steps room taken ((',' :: between).intercalate parts ++ (after ++ ']' :: rest)) =
      .ok (.items (taken.reverse ++ values), rest) := by
  induction h generalizing steps taken with
  | nil => exact absurd rfl hparts
  | @cons part value parts values hpart hrest ih =>
    obtain ⟨steps, rfl⟩ : ∃ less, steps = less + 1 := ⟨steps - 1, by omega⟩
    -- After the last part comes the bracket, after every other part a comma.
    cases hrest with
    | nil =>
      rw [List.intercalate_singleton] at hsteps hroom ⊢
      refine readItems_last (hpart.reads steps room _ (by omega) hroom ?_) ?_
      · exact endsNumber_gap_append hafter (endsNumber_cons (by decide) _)
      · exact Json.skipGap_append hafter _
    | @cons next other more others hnext hmore =>
      rw [List.intercalate_cons_cons] at hsteps hroom ⊢
      simp only [List.length_append, List.length_cons] at hsteps hroom
      simp only [List.append_assoc, List.cons_append]
      refine readItems_more (hpart.reads steps room _ (by omega) (by omega)
        (endsNumber_cons (by decide) _)) (skipGap_cons rfl _) ?_
      rw [skipGap_intercalate hbetween _ hnext.head,
        ih (List.cons_ne_nil _ _) (by omega) (by omega), List.reverse_cons, List.append_assoc]
      rfl

theorem readValue_items {steps room : ℕ} {cs : List Char} {result : Value × List Char}
    (hhead : (skipGap cs).head? ≠ some ']')
    (h : readItems steps room [] (skipGap cs) = .ok result) :
    readValue (steps + 1) (room + 1) ('[' :: cs) = .ok result := by
  unfold readValue
  refine ok_bind_iff.mpr ⟨room, rfl, ?_⟩
  split
  · rename_i heq
    rw [heq] at hhead
    exact absurd rfl hhead
  · exact h

/-- A list is read back when its items are. -/
theorem readsBack_items (layout : Layout) (depth : ℕ) {parts : List String} {values : List Value}
    (h : List.Forall₂ ReadsBack (parts.map String.toList) values) :
    ReadsBack (bracketed layout depth "[" "]" parts).toList (.items values) := by
  refine readsBack_bracketed layout depth rfl rfl (by decide) ?_ ?_
    (fun _ _ _ _ => readValue_items)
    fun hparts between after hbetween hafter steps room hsteps hroom rest =>
      readItems_intercalate hbetween hafter h (by simpa using hparts) hsteps hroom [] rest
  · rintro rfl steps room rest
    cases h
    rfl
  · intro part hpart
    cases parts with
    | nil => cases hpart
    | cons first more =>
      cases hpart
      cases h with
      | cons hpart => exact hpart.head

/-! ### Tables -/

/-- Entries that are read one after the other. A key that comes again takes the new value. -/
def insertAll (entries : List (String × Value)) (taken : List (Value × Value)) :
    List (Value × Value) :=
  entries.foldl (fun taken entry => Value.insert (.text entry.1) entry.2 taken) taken

/-- A part that is read as an entry of a table: a key between quotes, and a value that is read
    back. -/
def ReadsEntry (part : String) (entry : String × Value) : Prop :=
  ∃ key text, part = quotedText key ++ ": " ++ text ∧ joinedText key = entry.1 ∧
    ReadsBack text.toList entry.2

/-- An entry is read in two steps: its key, and its value after the colon. -/
theorem ReadsEntry.reads {part : String} {entry : String × Value} (h : ReadsEntry part entry)
    {steps room : ℕ} (hsteps : 2 * part.toList.length < steps + 1)
    (hroom : part.toList.length ≤ room) {rest : List Char} (hrest : EndsNumber rest) :
    ∃ body mid more, part.toList ++ rest = '"' :: body ∧
      readText? (steps + 1) [] body = some (entry.1, mid) ∧ skipGap mid = ':' :: more ∧
      readValue steps room (skipGap more) = .ok (entry.2, rest) := by
  rcases h with ⟨key, text, rfl, hkey, htext⟩
  have hlength := length_lt_quotedText key
  simp only [String.toList_append, List.length_append] at hsteps hroom
  change 2 * ((quotedText key).toList.length + 2 + text.toList.length) < steps + 1 at hsteps
  change (quotedText key).toList.length + 2 + text.toList.length ≤ room at hroom
  rcases @readText_quotedText key (':' :: ' ' :: (text.toList ++ rest)) (steps + 1) (by omega) with
    ⟨body, hbody, hread⟩
  refine ⟨body, _, ' ' :: (text.toList ++ rest), ?_, by rw [hread, hkey], skipGap_cons rfl _, ?_⟩
  · rw [← hbody]
    simp only [String.toList_append, List.append_assoc]
    rfl
  · show readValue steps room (skipGap (text.toList ++ rest)) = _
    rw [htext.skipGap_append]
    exact htext.reads steps room rest (by omega) (by omega) hrest

section Entries

variable {steps room : ℕ} {taken : List (Value × Value)} {part : String} {entry : String × Value}
  {rest tail : List Char}

theorem readEntries_last (h : ReadsEntry part entry)
    (hsteps : 2 * part.toList.length < steps + 1) (hroom : part.toList.length ≤ room)
    (hrest : EndsNumber rest) (hend : skipGap rest = '\x7d' :: tail) :
    readEntries (steps + 1) room taken (part.toList ++ rest) =
      .ok (.table (Value.insert (.text entry.1) entry.2 taken), tail) := by
  rcases h.reads hsteps hroom hrest with ⟨body, mid, more, hbody, hkey, hcolon, hvalue⟩
  rw [hbody]
  unfold readEntries
  refine ok_bind_iff.mpr ⟨(entry.1, mid), found_eq_ok.mpr hkey, ?_⟩
  dsimp only
  rw [hcolon]
  refine ok_bind_iff.mpr ⟨(entry.2, rest), hvalue, ?_⟩
  dsimp only
  rw [hend]
  rfl

theorem readEntries_more (h : ReadsEntry part entry)
    (hsteps : 2 * part.toList.length < steps + 1) (hroom : part.toList.length ≤ room)
    (hrest : EndsNumber rest) (hend : skipGap rest = ',' :: tail) {result : Value × List Char}
    (hmore : readEntries steps room (Value.insert (.text entry.1) entry.2 taken) (skipGap tail) =
      .ok result) :
    readEntries (steps + 1) room taken (part.toList ++ rest) = .ok result := by
  rcases h.reads hsteps hroom hrest with ⟨body, mid, more, hbody, hkey, hcolon, hvalue⟩
  rw [hbody]
  unfold readEntries
  refine ok_bind_iff.mpr ⟨(entry.1, mid), found_eq_ok.mpr hkey, ?_⟩
  dsimp only
  rw [hcolon]
  refine ok_bind_iff.mpr ⟨(entry.2, rest), hvalue, ?_⟩
  dsimp only
  rw [hend]
  exact hmore

end Entries

theorem ReadsEntry.head {part : String} {entry : String × Value} (h : ReadsEntry part entry) :
    ∃ c tail, part.toList = c :: tail ∧ isGap c = false ∧ c ≠ '\x7d' := by
  rcases h with ⟨key, text, rfl, -, -⟩
  rw [quotedText, String.toList_append, String.toList_append, String.toList_ofList]
  exact ⟨'"', _, rfl, by decide, by decide⟩

/-- Entries are read one by one up to the closing brace. -/
theorem readEntries_intercalate {between after : List Char} (hbetween : IsGap between)
    (hafter : IsGap after) {parts : List String} {entries : List (String × Value)}
    (h : List.Forall₂ ReadsEntry parts entries) (hparts : parts ≠ []) {steps room : ℕ}
    (hsteps : 2 * ((',' :: between).intercalate (parts.map String.toList)).length + 1 < steps)
    (hroom : ((',' :: between).intercalate (parts.map String.toList)).length ≤ room)
    (taken : List (Value × Value)) (rest : List Char) :
    readEntries steps room taken ((',' :: between).intercalate (parts.map String.toList) ++
      (after ++ '\x7d' :: rest)) = .ok (.table (insertAll entries taken), rest) := by
  induction h generalizing steps taken with
  | nil => exact absurd rfl hparts
  | @cons part entry parts entries hpart hrest ih =>
    obtain ⟨steps, rfl⟩ : ∃ less, steps = less + 1 := ⟨steps - 1, by omega⟩
    cases hrest with
    | nil =>
      rw [List.map_cons, List.map_nil, List.intercalate_singleton] at hsteps hroom ⊢
      exact readEntries_last hpart (by omega) hroom
        (endsNumber_gap_append hafter (endsNumber_cons (by decide) _))
        (skipGap_append hafter _)
    | @cons next other more others hnext hmore =>
      rw [List.map_cons, List.map_cons, List.intercalate_cons_cons] at hsteps hroom ⊢
      simp only [List.length_append, List.length_cons] at hsteps hroom
      simp only [List.append_assoc, List.cons_append]
      refine readEntries_more hpart (by omega) (by omega) (endsNumber_cons (by decide) _)
        (skipGap_cons rfl _) ?_
      rw [skipGap_intercalate hbetween _ hnext.head]
      exact ih (List.cons_ne_nil _ _) (by simp only [List.map_cons]; omega)
        (by simp only [List.map_cons]; omega) _

theorem readValue_table {steps room : ℕ} {cs : List Char} {result : Value × List Char}
    (hhead : (skipGap cs).head? ≠ some '\x7d')
    (h : readEntries steps room [] (skipGap cs) = .ok result) :
    readValue (steps + 1) (room + 1) ('\x7b' :: cs) = .ok result := by
  unfold readValue
  refine ok_bind_iff.mpr ⟨room, rfl, ?_⟩
  split
  · rename_i heq
    rw [heq] at hhead
    exact absurd rfl hhead
  · exact h

/-- A table is read back when its entries are. -/
theorem readsBack_table (layout : Layout) (depth : ℕ) {parts : List String}
    {entries : List (String × Value)} (h : List.Forall₂ ReadsEntry parts entries) :
    ReadsBack (bracketed layout depth "\x7b" "\x7d" parts).toList
      (.table (insertAll entries [])) := by
  refine readsBack_bracketed layout depth rfl rfl (by decide) ?_ ?_
    (fun _ _ _ _ => readValue_table)
    fun hparts between after hbetween hafter steps room hsteps hroom rest =>
      readEntries_intercalate hbetween hafter h hparts hsteps hroom [] rest
  · rintro rfl steps room rest
    cases h
    rfl
  · intro part hpart
    cases h with
    | nil => cases hpart
    | cons hfirst =>
      cases hpart
      exact hfirst.head

/-! ### Whole texts -/

/-- A text that is read back is the whole of what is read, also with blanks after it. -/
theorem ReadsBack.read_append {text after : String} {value : Value}
    (h : ReadsBack text.toList value) (hafter : IsGap after.toList) :
    read? (text ++ after) = some value := by
  have hrest : EndsNumber after.toList := by
    have hend := @endsNumber_gap_append _ [] hafter (by rintro c ⟨⟩)
    rwa [List.append_nil] at hend
  have hskip : skipGap after.toList = [] := by
    have hnone := Json.skipGap_append hafter []
    rwa [List.append_nil] at hnone
  have hlength : text.toList.length ≤ (text ++ after).toList.length := by
    rw [String.toList_append, List.length_append]
    omega
  have hread := h.reads (2 * (text ++ after).toList.length + 2) (text ++ after).length after.toList
    (by omega) (by rwa [← String.length_toList]) hrest
  unfold read? Json.read
  rw [String.toList_append] at hread ⊢
  dsimp only
  rw [h.skipGap_append, hread]
  show ((if (skipGap after.toList).isEmpty = true then _ else _ : Except Flaw Value)).toOption = _
  rw [hskip]
  rfl

end Json

end Darkroom
