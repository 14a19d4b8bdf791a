import SchemaCatalog.Json.Printer
import SchemaCatalog.Json.Reader

namespace SchemaCatalog.Json

theorem hexDigit?_hexDigit : ∀ n < 16, hexDigit? (hexDigit n) = some n := by
  decide

theorem hexUnit?_control {c : Char} (h : c.toNat < 32) :
    hexUnit? '0' '0' (hexDigit (c.toNat / 16)) (hexDigit (c.toNat % 16)) = some c.toNat := by
  have hhigh := hexDigit?_hexDigit (c.toNat / 16) (by omega)
  have hlow := hexDigit?_hexDigit (c.toNat % 16) (by omega)
  have hzero : hexDigit? '0' = some 0 := by decide
  simp only [hexUnit?, hhigh, hlow, hzero, Option.bind_eq_bind, Option.bind_some, Option.pure_def,
    Option.some.injEq]
  omega

theorem readString_control {c : Char} (h : c.toNat < 32) (rest : List Char) (offset : Nat)
    (done : String) :
    readString ('\\' :: 'u' :: '0' :: '0' :: hexDigit (c.toNat / 16) :: hexDigit (c.toNat % 16) ::
      rest) offset done = readString rest (offset + 6) (done.push c) := by
  have hlow : isLowSurrogate c.toNat = false := by
    simp [isLowSurrogate]
    omega
  have hhigh : isHighSurrogate c.toNat = false := by
    simp [isHighSurrogate]
    omega
  rw [readString, hexUnit?_control h]
  simp only [hlow, hhigh, Bool.false_eq_true, if_false, Char.ofNat_toNat]

theorem readString_plain {c : Char} (hquote : c ≠ '"') (hescape : c ≠ '\\') (h : ¬ c.toNat < 32)
    (rest : List Char) (offset : Nat) (done : String) :
    readString (c :: rest) offset done = readString rest (offset + c.utf8Size) (done.push c) := by
  rw [readString, if_neg h]
  all_goals simp [hquote, hescape]

/-- A character is read back however it was escaped. -/
theorem readString_escapeChar (c : Char) (rest : List Char) (offset : Nat) (done : String) :
    ∃ offset', readString (escapeChar c ++ rest) offset done =
      readString rest offset' (done.push c) := by
  by_cases hcontrol : c.toNat < 32
  · unfold escapeChar
    split
    · exact absurd hcontrol (by decide)
    · exact absurd hcontrol (by decide)
    · exact ⟨offset + 2, rfl⟩
    · exact ⟨offset + 2, rfl⟩
    · exact ⟨offset + 2, rfl⟩
    · exact ⟨offset + 2, rfl⟩
    · exact ⟨offset + 2, rfl⟩
    · rw [if_pos hcontrol]
      exact ⟨offset + 6, readString_control hcontrol rest offset done⟩
  · unfold escapeChar
    split
    · exact ⟨offset + 2, rfl⟩
    · exact ⟨offset + 2, rfl⟩
    · exact absurd (by decide) hcontrol
    · exact absurd (by decide) hcontrol
    · exact absurd (by decide) hcontrol
    · exact absurd (by decide) hcontrol
    · exact absurd (by decide) hcontrol
    · rename_i hquote hescape _ _ _ _ _
      rw [if_neg hcontrol]
      exact ⟨_, readString_plain hquote hescape hcontrol rest offset done⟩

theorem readString_escaped (text rest : List Char) (offset : Nat) (done : String) :
    ∃ offset', readString (text.flatMap escapeChar ++ '"' :: rest) offset done =
      .ok (done ++ String.ofList text, ⟨rest, offset'⟩) := by
  induction text generalizing offset done with
  | nil => exact ⟨offset + 1, by simp [readString]⟩
  | cons c text ih =>
    rw [List.flatMap_cons, List.append_assoc]
    obtain ⟨middle, hread⟩ :=
      readString_escapeChar c (text.flatMap escapeChar ++ '"' :: rest) offset done
    obtain ⟨offset', ih⟩ := ih middle (done.push c)
    refine ⟨offset', ?_⟩
    have happend : done.push c ++ String.ofList text = done ++ String.ofList (c :: text) := by
      apply String.toList_inj.1
      simp
    rw [hread, ih, happend]

theorem toList_renderString (s : String) :
    (renderString s).toList = '"' :: (s.toList.flatMap escapeChar ++ ['"']) := by
  simp [renderString]

theorem readString_renderString (text : String) (rest : List Char) (offset : Nat) :
    ∃ inside offset', (renderString text).toList ++ rest = '"' :: inside ∧
      readString inside (offset + 1) "" = .ok (text, ⟨rest, offset'⟩) := by
  obtain ⟨offset', hread⟩ := readString_escaped text.toList rest (offset + 1) ""
  refine ⟨text.toList.flatMap escapeChar ++ '"' :: rest, offset', ?_, ?_⟩
  · simp [toList_renderString]
  · rw [hread, String.empty_append, String.ofList_toList]

theorem value_renderString (s : ScanState) (text : String) (rest : List Char) (offset : Nat) :
    ∃ offset', s.value ⟨(renderString text).toList ++ rest, offset⟩ =
      .ok (s.emit (.scalar (.string text)) offset ⟨rest, offset'⟩ .next) := by
  obtain ⟨inside, offset', htext, hread⟩ := readString_renderString text rest offset
  refine ⟨offset', ?_⟩
  rw [htext, ScanState.value]
  simp only [hread]
  rfl

theorem key_renderString (s : ScanState) (name : String) (rest : List Char) (offset : Nat) :
    ∃ offset', s.key ⟨(renderString name).toList ++ rest, offset⟩ =
      .ok (s.emit (.key name) offset ⟨rest, offset'⟩ .colon) := by
  obtain ⟨inside, offset', htext, hread⟩ := readString_renderString name rest offset
  refine ⟨offset', ?_⟩
  rw [htext, ScanState.key]
  simp only [hread]
  rfl

def Ends (rest : List Char) : Prop := ∀ c ∈ rest.head?, c = ',' ∨ c = ']' ∨ c = '\x7d'

theorem le_ofDigitChars (digits : List Char) (n : Nat) : n ≤ Nat.ofDigitChars 10 digits n := by
  induction digits generalizing n with
  | nil => exact Nat.le_refl n
  | cons d digits ih =>
    rw [Nat.ofDigitChars_cons]
    have hrest := ih (10 * n + (d.toNat - '0'.toNat))
    omega

theorem absorb_of_le {limit : Nat} (digits : List Char) (n : Nat)
    (h : Nat.ofDigitChars 10 digits n ≤ limit) :
    absorb limit n digits = (Nat.ofDigitChars 10 digits n, []) := by
  induction digits generalizing n with
  | nil => rfl
  | cons d digits ih =>
    have hstep : n * 10 + digitValue d = 10 * n + (d.toNat - '0'.toNat) := by
      rw [Nat.mul_comm]
      rfl
    rw [Nat.ofDigitChars_cons] at h ⊢
    have hle := le_ofDigitChars digits (10 * n + (d.toNat - '0'.toNat))
    rw [absorb, hstep, if_pos (Nat.le_trans hle h)]
    exact ih _ h

theorem head_toDigits {n : Nat} (h : 0 < n) :
    ∃ c tail, Nat.toDigits 10 n = c :: tail ∧ c ≠ '0' := by
  induction n using Nat.strongRecOn with
  | ind n ih =>
    rw [Nat.toDigits_eq_if (by decide)]
    by_cases hsmall : n < 10
    · rw [if_pos hsmall]
      have hdigit : ∀ d < 10, 0 < d → Nat.digitChar d ≠ '0' := by decide
      exact ⟨_, [], rfl, hdigit n hsmall h⟩
    · rw [if_neg hsmall]
      obtain ⟨c, tail, htail, hc⟩ := ih (n / 10) (by omega) (by omega)
      rw [htail]
      exact ⟨c, _, rfl, hc⟩

theorem takeWhile_digits (n : Nat) {rest : List Char} (hrest : Ends rest) :
    (Nat.toDigits 10 n ++ rest).takeWhile Char.isDigit = Nat.toDigits 10 n := by
  have hdigits : ∀ c ∈ Nat.toDigits 10 n, c.isDigit = true :=
    fun c hc => Nat.isDigit_of_mem_toDigits (by decide) (by decide) hc
  have hnone : rest.takeWhile Char.isDigit = [] := by
    cases rest with
    | nil => rfl
    | cons c rest =>
      obtain h | h | h := hrest c rfl
      all_goals
        subst h
        rfl
  rw [List.takeWhile_append_of_pos hdigits, hnone, List.append_nil]

theorem afterInteger_ends (negative : Bool) (n : Nat) {cur : Cursor} (h : Ends cur.rest) :
    readNumber.afterInteger negative n 0 cur = .ok (integerNumeral negative n, cur) := by
  obtain ⟨rest, offset⟩ := cur
  cases rest with
  | nil => rfl
  | cons c rest =>
    obtain h | h | h := h c rfl
    all_goals
      subst h
      rfl

theorem advance_append (text rest : List Char) (offset : Nat) :
    Cursor.advance ⟨text ++ rest, offset⟩ text.length = ⟨rest, offset + text.length⟩ := by
  rw [Cursor.advance, List.drop_left]

theorem readNumber_of_digit {c : Char} (hdigit : c.isDigit = true) (hzero : c ≠ '0')
    (negative : Bool) (tail : List Char) (offset : Nat) {digits : List Char}
    (hdigits : (c :: tail).takeWhile Char.isDigit = digits) :
    readNumber negative ⟨c :: tail, offset⟩ =
      readNumber.afterInteger negative (absorb maxSignificand 0 digits).1
        (absorb maxSignificand 0 digits).2.length
        (Cursor.advance ⟨c :: tail, offset⟩ digits.length) := by
  subst hdigits
  rw [readNumber.eq_def]
  split
  case h_1 h => cases h
  case h_2 h => exact absurd (List.cons.inj h).1 hzero
  case h_3 h =>
    cases h
    rw [hdigit]
    rfl

/-- The digits of a number that is kept exactly are read back. -/
theorem readNumber_digits (negative : Bool) {n : Nat} (hn : n ≤ maxSignificand) {rest : List Char}
    (hrest : Ends rest) (offset : Nat) :
    ∃ offset', readNumber negative ⟨Nat.toDigits 10 n ++ rest, offset⟩ =
      .ok (integerNumeral negative n, ⟨rest, offset'⟩) := by
  cases Nat.eq_zero_or_pos n with
  | inl hzero =>
    -- a single zero has a branch of its own unless it ends the text
    subst hzero
    cases rest with
    | nil => exact ⟨offset + 1, rfl⟩
    | cons c rest =>
      obtain h | h | h := hrest c rfl
      all_goals
        subst h
        exact ⟨offset + 1, rfl⟩
  | inr hpos =>
    have hvalue : Nat.ofDigitChars 10 (Nat.toDigits 10 n) 0 = n :=
      Nat.ofDigitChars_toDigits (by decide) (by decide)
    have habsorb : absorb maxSignificand 0 (Nat.toDigits 10 n) = _ :=
      absorb_of_le _ 0 (by rwa [hvalue])
    rw [hvalue] at habsorb
    obtain ⟨c, tail, htail, hc⟩ := head_toDigits hpos
    have hdigit : c.isDigit = true :=
      Nat.isDigit_of_mem_toDigits (by decide) (by decide) (htail ▸ List.mem_cons_self)
    have hdigits : (c :: (tail ++ rest)).takeWhile Char.isDigit = Nat.toDigits 10 n := by
      rw [← List.cons_append, ← htail]
      exact takeWhile_digits n hrest
    refine ⟨offset + (Nat.toDigits 10 n).length, ?_⟩
    rw [htail, List.cons_append, readNumber_of_digit hdigit hc negative _ offset hdigits, habsorb,
      ← List.cons_append, ← htail, advance_append]
    exact afterInteger_ends negative n hrest

def Exact (n : Int) : Prop := -(Nat.pow 2 63 : Nat) ≤ n ∧ n ≤ maxSignificand

theorem value_digit {c : Char} (hc : c.isDigit = true) (s : ScanState) (tail : List Char)
    (offset : Nat) : s.value ⟨c :: tail, offset⟩ = do
      let (n, cur) ← readNumber false ⟨c :: tail, offset⟩
      return s.emit (.scalar (.number n)) offset cur .next := by
  rw [ScanState.value]
  split
  case h_1 h => cases h
  case h_9 h =>
    cases h
    rw [if_pos hc]
  all_goals
    rename_i h
    cases h
    exact absurd hc (by decide)

theorem toList_render_ofNat (n : Nat) :
    (Numeral.integer (.ofNat n)).render.toList = Nat.toDigits 10 n := by
  have hrepr : (Numeral.integer (.ofNat n)).render = n.repr := rfl
  rw [hrepr, Nat.repr_eq_ofList_toDigits, String.toList_ofList]

theorem toList_render_negSucc (n : Nat) :
    (Numeral.integer (.negSucc n)).render.toList = '-' :: Nat.toDigits 10 (n + 1) := by
  have hrepr : (Numeral.integer (.negSucc n)).render = "-" ++ (n + 1).repr := rfl
  simp [hrepr, Nat.repr_eq_ofList_toDigits]

theorem exists_digit (n : Nat) : ∃ c tail, Nat.toDigits 10 n = c :: tail ∧ c.isDigit = true := by
  obtain ⟨c, tail, htail⟩ := List.exists_cons_of_ne_nil (Nat.toDigits_ne_nil (n := n) (b := 10))
  exact ⟨c, tail, htail,
    Nat.isDigit_of_mem_toDigits (by decide) (by decide) (htail ▸ List.mem_cons_self)⟩

theorem value_integer {n : Int} (hn : Exact n) {rest : List Char} (hrest : Ends rest)
    (s : ScanState) (offset : Nat) :
    ∃ offset', s.value ⟨(Numeral.integer n).render.toList ++ rest, offset⟩ =
      .ok (s.emit (.scalar (.int n)) offset ⟨rest, offset'⟩ .next) := by
  obtain ⟨hlow, hhigh⟩ := hn
  cases n with
  | ofNat n =>
    obtain ⟨offset', hread⟩ := readNumber_digits false (Int.ofNat_le.1 hhigh) hrest offset
    obtain ⟨c, tail, htail, hdigit⟩ := exists_digit n
    refine ⟨offset', ?_⟩
    rw [toList_render_ofNat]
    rw [htail] at hread ⊢
    rw [List.cons_append, value_digit hdigit, ← List.cons_append, hread]
    rfl
  | negSucc n =>
    simp only [Nat.pow_eq] at hlow
    have hle : n + 1 ≤ maxSignificand := by
      simp only [maxSignificand, Nat.pow_eq]
      omega
    obtain ⟨offset', hread⟩ := readNumber_digits true hle hrest (offset + 1)
    have hnumeral : integerNumeral true (n + 1) = .integer (.negSucc n) := by
      have hrange : (n + 1 == 0 || decide (n + 1 > Nat.pow 2 63)) = false := by
        simp only [Nat.pow_eq]
        simp
        omega
      rw [integerNumeral, hrange]
      rfl
    refine ⟨offset', ?_⟩
    rw [toList_render_negSucc, List.cons_append, ScanState.value, Cursor.advance]
    simp only [List.drop_succ_cons, List.drop_zero, hread, hnumeral]
    rfl

/-- The values that are printed without floats and nest at most so deep. -/
inductive Fits : Nat → Json → Prop
  | null {depth : Nat} : Fits depth .null
  | bool {depth : Nat} (b : Bool) : Fits depth (.bool b)
  | int {depth : Nat} {n : Int} : Exact n → Fits depth (.int n)
  | string {depth : Nat} (s : String) : Fits depth (.string s)
  | array {depth : Nat} {items : List Json} : (∀ item ∈ items, Fits depth item) →
    Fits (depth + 1) (.array items)
  | object {depth : Nat} {members : List (String × Json)} :
    (∀ member ∈ members, Fits depth member.2) → Fits (depth + 1) (.object members)

namespace ScanState

/-- A scan that gives the events and gets from one state to the other. -/
inductive Emits : ScanState → List Event → ScanState → Prop
  | refl {s : ScanState} : Emits s [] s
  | step {s t u : ScanState} {e : Located} {es : List Event} : s.step = .ok (some (e, t)) →
    t.position.rest.length < s.position.rest.length → Emits t es u → Emits s (e.event :: es) u

theorem Emits.trans {s t u : ScanState} {es es' : List Event} (h : s.Emits es t)
    (h' : t.Emits es' u) : s.Emits (es ++ es') u := by
  induction h with
  | refl => exact h'
  | step hstep hlength _ ih => exact .step hstep hlength (ih h')

theorem Emits.length_le {s t : ScanState} {es : List Event} (h : s.Emits es t) :
    es.length + t.position.rest.length ≤ s.position.rest.length := by
  induction h with
  | refl => exact Nat.le_of_eq (Nat.zero_add _)
  | step _ hlength _ ih =>
    rw [List.length_cons]
    omega

theorem Emits.run {s t : ScanState} {es : List Event} (h : s.Emits es t) (hend : t.step = .ok none)
    {fuel : Nat} (hfuel : es.length < fuel) (done : List Located) :
    ∃ located, run fuel s done = ⟨done.reverse ++ located, none⟩ ∧
      located.map Located.event = es := by
  induction h generalizing fuel done with
  | refl =>
    obtain ⟨fuel, rfl⟩ := Nat.exists_eq_succ_of_ne_zero (Nat.ne_of_gt hfuel)
    refine ⟨[], ?_, rfl⟩
    rw [ScanState.run, hend, List.append_nil]
  | @step s t u e es hstep _ _ ih =>
    obtain ⟨fuel, rfl⟩ := Nat.exists_eq_succ_of_ne_zero (Nat.ne_of_gt (Nat.zero_lt_of_lt hfuel))
    obtain ⟨located, hrun, hevents⟩ := ih hend (Nat.lt_of_succ_lt_succ hfuel) (e :: done)
    refine ⟨e :: located, ?_, congrArg (e.event :: ·) hevents⟩
    rw [ScanState.run, hstep]
    simp only [hrun, List.reverse_cons, List.append_assoc, List.singleton_append]

end ScanState

theorem toList_intercalate_cons (part : String) (parts : List String) :
    (",".intercalate (part :: parts)).toList =
      part.toList ++ parts.flatMap fun part => ',' :: part.toList := by
  induction parts generalizing part with
  | nil => simp
  | cons next parts ih =>
    rw [String.intercalate_cons_cons, String.toList_append, ih next]
    simp

theorem renderItems_eq (items : List Json) : renderItems items = items.map render := by
  induction items with
  | nil => rfl
  | cons item items ih => rw [renderItems, ih, List.map_cons]

def memberText (member : String × Json) : String :=
  renderString member.1 ++ ":" ++ render member.2

theorem renderMembers_eq (members : List (String × Json)) :
    renderMembers members = members.map memberText := by
  induction members with
  | nil => rfl
  | cons member members ih =>
    obtain ⟨key, value⟩ := member
    rw [renderMembers, ih, List.map_cons, memberText]

/-- What the text of a value starts with: no blank and no mark that ends a container. -/
def Starts (text : List Char) : Prop :=
  ∃ c tail, text = c :: tail ∧ Cursor.isBlank c = false ∧ c ≠ ']' ∧ c ≠ '\x7d'

theorem Starts.append {text : List Char} (h : Starts text) (rest : List Char) :
    Starts (text ++ rest) := by
  obtain ⟨c, tail, rfl, h⟩ := h
  exact ⟨c, tail ++ rest, rfl, h⟩

theorem Starts.skipBlanks {text : List Char} (h : Starts text) (offset : Nat) :
    (Cursor.mk text offset).skipBlanks = ⟨text, offset⟩ := by
  obtain ⟨c, tail, rfl, hblank, -⟩ := h
  simp [Cursor.skipBlanks, hblank]

theorem Starts.of_digits (n : Nat) : Starts (Nat.toDigits 10 n) := by
  obtain ⟨c, tail, htail, hdigit⟩ := exists_digit n
  refine ⟨c, tail, htail, ?_, ?_, ?_⟩
  · rw [← Bool.not_eq_true]
    intro hblank
    simp only [Cursor.isBlank, Bool.or_eq_true, beq_iff_eq] at hblank
    obtain ((h | h) | h) | h := hblank
    all_goals
      subst h
      exact absurd hdigit (by decide)
  · rintro rfl
    exact absurd hdigit (by decide)
  · rintro rfl
    exact absurd hdigit (by decide)

theorem starts_render {depth : Nat} {v : Json} (h : Fits depth v) : Starts (render v).toList := by
  cases h with
  | null => exact ⟨'n', _, rfl, by decide⟩
  | bool b =>
    cases b with
    | true => exact ⟨'t', _, rfl, by decide⟩
    | false => exact ⟨'f', _, rfl, by decide⟩
  | @int _ n _ =>
    cases n with
    | ofNat n =>
      rw [Json.int, render, toList_render_ofNat]
      exact .of_digits n
    | negSucc n =>
      rw [Json.int, render, toList_render_negSucc]
      exact ⟨'-', _, rfl, by decide⟩
  | string s =>
    rw [render, toList_renderString]
    exact ⟨'"', _, rfl, by decide⟩
  | array _ =>
    rw [render, enclose, String.toList_append, String.toList_append]
    exact ⟨'[', _, rfl, by decide⟩
  | object _ =>
    rw [render, enclose, String.toList_append, String.toList_append]
    exact ⟨'\x7b', _, rfl, by decide⟩

namespace Container

def left : Container → Char
  | .array => '['
  | .object => '\x7b'

def right : Container → Char
  | .array => ']'
  | .object => '\x7d'

def opens : Container → Event
  | .array => .beginArray
  | .object => .beginObject

def closes : Container → Event
  | .array => .endArray
  | .object => .endObject

def first : Container → Expected
  | .array => .firstItem
  | .object => .firstKey

def read : Container → ScanState → Cursor → Except Failure (Located × ScanState)
  | .array => ScanState.value
  | .object => ScanState.key

end Container

namespace ScanState

/-- The next step of the scan reads from `text`. -/
structure Awaits (s : ScanState) (read : ScanState → Cursor → Except Failure (Located × ScanState))
    (text : List Char) : Prop where
  step : ∃ offset, s.step = some <$> read s ⟨text, offset⟩
  length_le : text.length ≤ s.position.rest.length

variable {s : ScanState} {cs : List Container} {text rest : List Char} {offset : Nat}

theorem Awaits.emits {read : ScanState → Cursor → Except Failure (Located × ScanState)}
    {event : Event} {expected : Expected} (h : s.Awaits read text)
    (hread : ∀ offset, ∃ offset',
      read s ⟨text, offset⟩ = .ok (s.emit event offset ⟨rest, offset'⟩ expected cs))
    (hlength : rest.length < text.length) :
    ∃ offset', s.Emits [event] ⟨⟨rest, offset'⟩, expected, cs⟩ := by
  obtain ⟨offset, hstep⟩ := h.step
  obtain ⟨offset', hread⟩ := hread offset
  rw [hread] at hstep
  exact ⟨offset', .step hstep (Nat.lt_of_lt_of_le hlength h.length_le) .refl⟩

theorem awaits_first (c : Container) (htext : Starts text) :
    ScanState.Awaits ⟨⟨text, offset⟩, c.first, c :: cs⟩ c.read text := by
  refine ⟨⟨offset, ?_⟩, Nat.le_refl _⟩
  have hblanks := htext.skipBlanks offset
  obtain ⟨x, tail, rfl, -, hbracket, hbrace⟩ := htext
  rw [ScanState.step, hblanks]
  cases c with
  | array =>
    simp only [Container.first]
    split
    · rename_i h
      cases h
    · rename_i h
      exact absurd (List.cons.inj h).1 hbracket
    · rfl
  | object =>
    simp only [Container.first]
    split
    · rename_i h
      cases h
    · rename_i h
      exact absurd (List.cons.inj h).1 hbrace
    · rfl

theorem awaits_next (c : Container) (htext : Starts text) :
    ScanState.Awaits ⟨⟨',' :: text, offset⟩, .next, c :: cs⟩ c.read text := by
  refine ⟨⟨offset + 1, ?_⟩, Nat.le_succ _⟩
  have hblanks := htext.skipBlanks (offset + 1)
  obtain ⟨x, tail, rfl, -, hbracket, hbrace⟩ := htext
  have hcomma : (Cursor.mk (',' :: x :: tail) offset).skipBlanks = ⟨',' :: x :: tail, offset⟩ := rfl
  have hadvance : (Cursor.mk (',' :: x :: tail) offset).advance 1 = ⟨x :: tail, offset + 1⟩ := rfl
  rw [ScanState.step, hcomma]
  cases c with
  | array =>
    simp only [hadvance, hblanks]
    split
    · rename_i h
      exact absurd (List.cons.inj h).1 hbracket
    · rfl
  | object =>
    simp only [hadvance, hblanks]
    split
    · rename_i h
      cases h
    · rename_i h
      exact absurd (List.cons.inj h).1 hbrace
    · rfl

theorem awaits_colon (htext : Starts text) :
    ScanState.Awaits ⟨⟨':' :: text, offset⟩, .colon, cs⟩ ScanState.value text := by
  refine ⟨⟨offset + 1, ?_⟩, Nat.le_succ _⟩
  have hcolon : (Cursor.mk (':' :: text) offset).skipBlanks = ⟨':' :: text, offset⟩ := rfl
  have hadvance : (Cursor.mk (':' :: text) offset).advance 1 = ⟨text, offset + 1⟩ := rfl
  rw [ScanState.step, hcolon]
  simp only [hadvance, htext.skipBlanks (offset + 1)]

theorem emits_close (c : Container) {expected : Expected}
    (h : expected = c.first ∨ expected = .next) :
    ScanState.Emits ⟨⟨c.right :: rest, offset⟩, expected, c :: cs⟩ [c.closes]
      ⟨⟨rest, offset + 1⟩, .next, cs⟩ := by
  refine .step (e := ⟨c.closes, offset, offset + 1⟩) ?_ (Nat.lt_succ_self _) .refl
  obtain h | h := h
  all_goals
    subst h
    cases c
  all_goals rfl

theorem Awaits.emits_open {c : Container} (h : s.Awaits ScanState.value (c.left :: text))
    (hdepth : s.containers.length + 1 < depthLimit) :
    ∃ offset', s.Emits [c.opens] ⟨⟨text, offset'⟩, c.first, c :: s.containers⟩ := by
  refine h.emits (fun offset => ⟨offset + 1, ?_⟩) (Nat.lt_succ_self _)
  have hopened (cur : Cursor) : s.opened cur c c.opens c.first =
      .ok (s.emit c.opens cur.offset (cur.advance 1) c.first (c :: s.containers)) := by
    rw [opened, if_neg (Nat.not_le.2 hdepth)]
  cases c with
  | array => exact hopened _
  | object => exact hopened _

end ScanState

theorem itemEvents_eq (items : List Json) : itemEvents items = items.flatMap Json.events := by
  induction items with
  | nil => rfl
  | cons item items ih => rw [itemEvents, ih, List.flatMap_cons]

theorem memberEvents_eq (members : List (String × Json)) : memberEvents members =
    members.flatMap fun member => .key member.1 :: member.2.events := by
  induction members with
  | nil => rfl
  | cons member members ih =>
    obtain ⟨key, value⟩ := member
    rw [memberEvents, ih, List.flatMap_cons, List.cons_append]

/-- Something that a container holds: its text and its events. -/
structure Part where
  text : List Char
  events : List Event

def itemPart (v : Json) : Part := ⟨(render v).toList, v.events⟩

def memberPart (member : String × Json) : Part :=
  ⟨(memberText member).toList, .key member.1 :: member.2.events⟩

theorem itemPart_text (v : Json) : (itemPart v).text = (render v).toList := by
  rw [itemPart]

theorem memberPart_text (member : String × Json) :
    (memberPart member).text = (memberText member).toList := by
  rw [memberPart]

def joined : List Part → List Char
  | [] => []
  | part :: parts => part.text ++ parts.flatMap fun part => ',' :: part.text

theorem toList_intercalate {α : Type} (f : α → String) (part : α → Part)
    (h : ∀ a, (part a).text = (f a).toList) (as : List α) :
    (",".intercalate (as.map f)).toList = joined (as.map part) := by
  cases as with
  | nil => rfl
  | cons a as =>
    rw [List.map_cons, List.map_cons, toList_intercalate_cons, joined, h]
    simp [List.flatMap_map, h]

theorem starts_memberPart (member : String × Json) : Starts (memberPart member).text := by
  rw [memberPart_text, memberText, String.toList_append, String.toList_append, toList_renderString]
  exact ⟨'"', _, rfl, by decide⟩

namespace ScanState

variable {cs : List Container} {rest : List Char} {depth : Nat}

/-- A scan that reads the part gets past it, if the part does not nest too deep. -/
def Passes (read : ScanState → Cursor → Except Failure (Located × ScanState)) (depth : Nat)
    (part : Part) : Prop :=
  ∀ (s : ScanState) (rest : List Char), s.Awaits read (part.text ++ rest) → Ends rest →
    s.containers.length + depth < depthLimit →
      ∃ offset', s.Emits part.events ⟨⟨rest, offset'⟩, .next, s.containers⟩

theorem ends_parts (c : Container) (parts : List Part) (rest : List Char) :
    Ends ((parts.flatMap fun part => ',' :: part.text) ++ c.right :: rest) := by
  intro x hx
  cases parts with
  | nil =>
    cases hx
    cases c with
    | array => exact .inr (.inl rfl)
    | object => exact .inr (.inr rfl)
  | cons part parts =>
    cases hx
    exact .inl rfl

theorem emits_parts (c : Container) {parts : List Part}
    (hparts : ∀ part ∈ parts, Starts part.text ∧ Passes c.read depth part)
    (hdepth : (c :: cs).length + depth < depthLimit) (offset : Nat) :
    ∃ offset', ScanState.Emits
      ⟨⟨(parts.flatMap fun part => ',' :: part.text) ++ c.right :: rest, offset⟩, .next, c :: cs⟩
      (parts.flatMap Part.events ++ [c.closes]) ⟨⟨rest, offset'⟩, .next, cs⟩ := by
  induction parts generalizing offset with
  | nil => exact ⟨offset + 1, emits_close c (.inr rfl)⟩
  | cons part parts ih =>
    obtain ⟨hpart, hrest⟩ := List.forall_mem_cons.1 hparts
    rw [List.flatMap_cons, List.cons_append, List.cons_append, List.append_assoc,
      List.flatMap_cons, List.append_assoc]
    obtain ⟨middle, hfirst⟩ := hpart.2 _ _ (awaits_next c (hpart.1.append _))
      (ends_parts c parts rest) hdepth
    obtain ⟨offset', hothers⟩ := ih hrest middle
    exact ⟨offset', hfirst.trans hothers⟩

theorem passes_container (c : Container) {parts : List Part}
    (hparts : ∀ part ∈ parts, Starts part.text ∧ Passes c.read depth part) :
    Passes ScanState.value (depth + 1)
      ⟨c.left :: (joined parts ++ [c.right]),
        c.opens :: (parts.flatMap Part.events ++ [c.closes])⟩ := by
  intro s rest hawaits hrest hdepth
  have hinside : (c :: s.containers).length + depth < depthLimit := by
    rw [List.length_cons]
    omega
  simp only [List.cons_append, List.append_assoc] at hawaits
  obtain ⟨start, hopen⟩ := hawaits.emits_open (by omega)
  cases parts with
  | nil => exact ⟨start + 1, hopen.trans (emits_close c (.inl rfl))⟩
  | cons part parts =>
    obtain ⟨hpart, hothers⟩ := List.forall_mem_cons.1 hparts
    rw [joined, List.append_assoc] at hopen
    obtain ⟨middle, hfirst⟩ := hpart.2 _ _ (awaits_first c (hpart.1.append _))
      (ends_parts c parts rest) hinside
    obtain ⟨offset', hlast⟩ := emits_parts c hothers hinside middle
    rw [List.flatMap_cons, List.append_assoc]
    exact ⟨offset', hopen.trans (hfirst.trans hlast)⟩

theorem passes_scalar {v : Json} (h : Fits depth v) (hevents : v.events = [.scalar v])
    (hread : ∀ (s : ScanState) (rest : List Char) (offset : Nat), Ends rest →
      ∃ offset', s.value ⟨(render v).toList ++ rest, offset⟩ =
        .ok (s.emit (.scalar v) offset ⟨rest, offset'⟩ .next)) :
    Passes ScanState.value depth (itemPart v) := by
  intro s rest hawaits hrest _
  obtain ⟨c, tail, htext, -⟩ := starts_render h
  have hlength : rest.length < ((render v).toList ++ rest).length := by
    simp only [htext, List.length_append, List.length_cons]
    omega
  rw [itemPart_text] at hawaits
  rw [itemPart, hevents]
  exact hawaits.emits (fun offset => hread s rest offset hrest) hlength

theorem passes_member {member : String × Json} (hstarts : Starts (render member.2).toList)
    (h : Passes ScanState.value depth (itemPart member.2)) :
    Passes ScanState.key depth (memberPart member) := by
  intro s rest hawaits hrest hdepth
  have htext : (memberText member).toList ++ rest =
      (renderString member.1).toList ++ ':' :: ((render member.2).toList ++ rest) := by
    simp [memberText]
  have hlength : (':' :: ((render member.2).toList ++ rest)).length <
      ((memberText member).toList ++ rest).length := by
    simp [htext, toList_renderString]
    omega
  rw [htext] at hlength
  rw [memberPart_text, htext] at hawaits
  obtain ⟨colon, hkey⟩ := hawaits.emits (key_renderString s member.1 _) hlength
  obtain ⟨offset', hvalue⟩ := h _ rest (awaits_colon (hstarts.append rest)) hrest hdepth
  exact ⟨offset', hkey.trans hvalue⟩

theorem passes_array {items : List Json} (hitems : ∀ item ∈ items, Fits depth item)
    (h : ∀ item ∈ items, Passes ScanState.value depth (itemPart item)) :
    Passes ScanState.value (depth + 1) (itemPart (.array items)) := by
  have htext : (render (.array items)).toList =
      '[' :: (joined (items.map itemPart) ++ [']']) := by
    have hjoined := toList_intercalate render itemPart itemPart_text items
    simp only [render, enclose, renderItems_eq, String.toList_append, hjoined]
    rfl
  have hevents : events (.array items) =
      .beginArray :: ((items.map itemPart).flatMap Part.events ++ [.endArray]) := by
    rw [events, itemEvents_eq, List.flatMap_map]
    rfl
  rw [itemPart, htext, hevents]
  apply passes_container .array
  intro part hpart
  obtain ⟨v, hv, rfl⟩ := List.mem_map.1 hpart
  exact ⟨itemPart_text v ▸ starts_render (hitems v hv), h v hv⟩

theorem passes_object {members : List (String × Json)}
    (hmembers : ∀ member ∈ members, Fits depth member.2)
    (h : ∀ member ∈ members, Passes ScanState.value depth (itemPart member.2)) :
    Passes ScanState.value (depth + 1) (itemPart (.object members)) := by
  have htext : (render (.object members)).toList =
      '\x7b' :: (joined (members.map memberPart) ++ ['\x7d']) := by
    have hjoined := toList_intercalate memberText memberPart memberPart_text members
    simp only [render, enclose, renderMembers_eq, String.toList_append, hjoined]
    rfl
  have hevents : events (.object members) =
      .beginObject :: ((members.map memberPart).flatMap Part.events ++ [.endObject]) := by
    rw [events, memberEvents_eq, List.flatMap_map]
    rfl
  rw [itemPart, htext, hevents]
  apply passes_container .object
  intro part hpart
  obtain ⟨member, hmember, rfl⟩ := List.mem_map.1 hpart
  have hstarts := starts_render (hmembers member hmember)
  exact ⟨starts_memberPart member, passes_member hstarts (h member hmember)⟩

theorem passes_render {v : Json} (h : Fits depth v) :
    Passes ScanState.value depth (itemPart v) := by
  induction h with
  | null => exact passes_scalar .null rfl fun s rest offset _ => ⟨offset + 4, rfl⟩
  | bool b =>
    refine passes_scalar (.bool b) rfl fun s rest offset _ => ?_
    cases b with
    | true => exact ⟨offset + 4, rfl⟩
    | false => exact ⟨offset + 5, rfl⟩
  | int hn => exact passes_scalar (.int hn) rfl fun s rest offset hrest =>
      value_integer hn hrest s offset
  | string text => exact passes_scalar (.string text) rfl fun s rest offset _ =>
      value_renderString s text rest offset
  | array hitems ih => exact passes_array hitems ih
  | object hmembers ih => exact passes_object hmembers ih

end ScanState

theorem ofText_render {depth : Nat} {v : Json} (h : Fits depth v) (hdepth : depth < depthLimit) :
    ∃ located, Events.ofText v.render = ⟨located, none⟩ ∧ located.map Located.event = v.events := by
  have hstarts := starts_render h
  have hawaits : ScanState.Awaits ⟨⟨v.render.toList ++ [], 0⟩, .value, []⟩ ScanState.value
      (v.render.toList ++ []) := by
    refine ⟨⟨0, ?_⟩, Nat.le_refl _⟩
    rw [ScanState.step, (hstarts.append []).skipBlanks]
  obtain ⟨offset, hemits⟩ :=
    ScanState.passes_render h _ [] hawaits nofun (by rw [List.length_nil]; omega)
  have hlength := hemits.length_le
  rw [List.append_nil] at hemits hlength
  obtain ⟨located, hrun, hevents⟩ := hemits.run rfl
    (Nat.lt_succ_of_le (Nat.le_of_add_right_le hlength)) []
  refine ⟨located, ?_, hevents⟩
  rw [Events.ofText, ← String.length_toList]
  exact hrun

end SchemaCatalog.Json
