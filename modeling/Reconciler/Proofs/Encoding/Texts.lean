import Reconciler.Json.Reader
import Reconciler.Json.Writer
import Reconciler.Proofs.Encoding.Times

set_option autoImplicit false

namespace Reconciler.Json

mutual
def isPlain : Json → Bool
  | .null | .bool _ | .string _ => true
  | .integer n => isWord64 n
  | .decimal .. => false
  | .array items => plainItems items
  | .object members => plainMembers members

def plainItems : List Json → Bool
  | [] => true
  | item :: items => item.isPlain && plainItems items

def plainMembers : List (String × Json) → Bool
  | [] => true
  | (_, value) :: members => value.isPlain && plainMembers members
end

def Closed (cs : List Char) : Prop :=
  ∀ c ∈ cs.head?, c = ',' ∨ c = ']' ∨ c = '\x7d'

section

variable {digits cs done : List Char} {c : Char} {fuel : Nat}

theorem Closed.no_digit (closed : Closed cs) : Timestamp.Parts cs := by
  intro c next
  rcases closed c next with rfl | rfl | rfl <;> rfl

theorem Closed.no_fraction (closed : Closed cs) : readFraction? cs = some (none, cs) := by
  cases cs with
  | nil => rfl
  | cons c rest => rcases closed c rfl with rfl | rfl | rfl <;> rfl

theorem Closed.no_exponent (closed : Closed cs) : readExponent? cs = some (none, cs) := by
  cases cs with
  | nil => rfl
  | cons c rest => rcases closed c rfl with rfl | rfl | rfl <;> rfl

theorem takeDigits_append (each : ∀ c ∈ digits, c.isDigit = true) (ends : Timestamp.Parts cs) (value count : Nat) :
    takeDigits (digits ++ cs) value count = (Nat.ofDigitChars 10 digits value, count + digits.length, cs) := by
  induction digits generalizing value count with
  | nil =>
      cases cs with
      | nil => rfl
      | cons c rest => simp [takeDigits, ends c rfl]
  | cons c rest ih =>
      have digit := each c List.mem_cons_self
      have later := ih (fun d member => each d (List.mem_cons_of_mem c member)) (10 * value + digitValue c)
        (count + 1)
      rw [List.cons_append, takeDigits, if_pos digit, Nat.mul_comm value, later, Nat.ofDigitChars_cons,
        List.length_cons, Nat.add_right_comm, Nat.add_assoc]
      rfl

theorem numeral_toDigits (n : Nat) : Timestamp.Numeral n (Nat.toDigits 10 n) where
  nonempty := Nat.toDigits_ne_nil
  each := fun _ member => Nat.isDigit_of_mem_toDigits (by decide) (by decide) member
  value := Nat.ofDigitChars_ten_toDigits

theorem takeDigits_toDigits (n : Nat) (ends : Timestamp.Parts cs) :
    takeDigits (Nat.toDigits 10 n ++ cs) 0 0 = (n, (Nat.toDigits 10 n).length, cs) := by
  rw [takeDigits_append (numeral_toDigits n).each ends, (numeral_toDigits n).value, Nat.zero_add]

theorem digit_ne_zero : ∀ n < 10, 0 < n → Nat.digitChar n ≠ '0' := by decide

theorem head_toDigits {n : Nat} (positive : 0 < n) : (Nat.toDigits 10 n).head? ≠ some '0' := by
  induction n using Nat.strongRecOn with
  | _ n ih =>
      -- The first digit is that of the number without its last one.
      by_cases small : n < 10
      · rw [Nat.toDigits_of_lt_base small]
        simpa using digit_ne_zero n small positive
      · have front := ih (n / 10) (by omega) (by omega)
        rw [Nat.toDigits_of_base_le (by decide) (by omega)]
        cases more : Nat.toDigits 10 (n / 10) with
        | nil => exact absurd more Nat.toDigits_ne_nil
        | cons c rest => simpa [more] using front

theorem zero_first {n : Nat} (more : 1 < (Nat.toDigits 10 n).length) : (Nat.toDigits 10 n).head? ≠ some '0' := by
  refine head_toDigits (Nat.pos_of_ne_zero ?_)
  rintro rfl
  exact absurd more (by decide)

theorem not_minus {n : Nat} {rest : List Char} : Nat.toDigits 10 n ++ cs ≠ '-' :: rest := by
  obtain ⟨c, more, digits, digit⟩ := (numeral_toDigits n).head
  rw [digits]
  intro same
  obtain ⟨rfl, -⟩ := List.cons.inj same
  exact absurd digit (by decide)

theorem readNumber?_toDigits {n : Nat} (fits : isWord64 n = true) (closed : Closed cs) :
    readNumber? (Nat.toDigits 10 n ++ cs) = some (.integer n, cs) := by
  have unsigned : numberOf false n none none = .integer n := by simp [numberOf, fits]
  unfold readNumber?
  split
  rename_i sign
  split at sign
  · exact absurd ‹_› not_minus
  · obtain ⟨rfl, rfl⟩ := Prod.mk.inj sign
    simpa [takeDigits_toDigits n closed.no_digit, closed.no_fraction, closed.no_exponent, unsigned]
      using zero_first

theorem readNumber?_minus {n : Nat} (positive : 0 < n) (fits : isWord64 (-n) = true) (closed : Closed cs) :
    readNumber? ('-' :: (Nat.toDigits 10 n ++ cs)) = some (.integer (-n), cs) := by
  have signed : numberOf true n none none = .integer (-n) := by simp [numberOf, fits, Nat.ne_of_gt positive]
  simp [readNumber?, takeDigits_toDigits n closed.no_digit, closed.no_fraction, closed.no_exponent, signed,
    head_toDigits positive]

theorem toString_negSucc (n : Nat) : (toString (Int.negSucc n)).toList = '-' :: Nat.toDigits 10 (n + 1) := by
  show ("-" ++ toString (n + 1)).toList = _
  rw [String.toList_append, Timestamp.toList_toString]
  rfl

theorem readNumber?_toString {n : Int} (fits : isWord64 n = true) (closed : Closed cs) :
    readNumber? ((toString n).toList ++ cs) = some (.integer n, cs) := by
  cases n with
  | ofNat n =>
      show readNumber? ((toString n).toList ++ cs) = _
      rw [Timestamp.toList_toString]
      exact readNumber?_toDigits fits closed
  | negSucc n =>
      rw [toString_negSucc]
      exact readNumber?_minus n.succ_pos fits closed

theorem hexValue?_hexDigit : ∀ n < 16, hexValue? (Text.hexDigit n) = some n := by decide

theorem unicodeEscape?_hexDigits {n : Nat} (low : n < 0x20) :
    unicodeEscape? ('0' :: '0' :: Text.hexDigit (n / 16) :: Text.hexDigit (n % 16) :: cs) =
      some (Char.ofNat n, cs) := by
  have zero : hexValue? '0' = some 0 := rfl
  have read : hexQuad? ('0' :: '0' :: Text.hexDigit (n / 16) :: Text.hexDigit (n % 16) :: cs) = some (n, cs) := by
    have high := hexValue?_hexDigit (n / 16) (by omega)
    have low := hexValue?_hexDigit (n % 16) (by omega)
    simp only [hexQuad?, zero, high, low, Option.bind_eq_bind, Option.bind_some, Option.pure_def, Option.some.injEq,
      Prod.mk.injEq, and_true]
    omega
  have before : ¬0xd800 ≤ n := by omega
  have after : ¬0xdc00 ≤ n := by omega
  simp [unicodeEscape?, read, before, after]

theorem readString?_escaped (c : Char) :
    readString? (fuel + 1) (escaped c ++ cs) done = readString? fuel cs (c :: done) := by
  unfold escaped
  -- Escapes of two characters first, then the one by number, and last a character that stands for itself.
  split
  · subst c; rfl
  split
  · subst c; rfl
  split
  · subst c; rfl
  split
  · subst c; rfl
  split
  · subst c; rfl
  split
  · obtain rfl : c = '\x08' := Char.toNat_inj.mp ‹_›
    rfl
  split
  · obtain rfl : c = '\x0c' := Char.toNat_inj.mp ‹_›
    rfl
  split
  · rename_i low
    have read : unicodeEscape? ('0' :: '0' :: Text.hexDigit (c.toNat / 16) :: Text.hexDigit (c.toNat % 16) :: cs) =
        some (c, cs) :=
      (unicodeEscape?_hexDigits low).trans (by rw [Char.ofNat_toNat])
    simp [readString?, read]
  · rename_i quote escape _ _ _ _ _ high
    simp [readString?, quote, escape, high]

theorem escaped_ne_nil (c : Char) : escaped c ≠ [] := by
  grind [escaped]

theorem readString?_flatMap (text : List Char) (enough : text.length < fuel) :
    readString? fuel (text.flatMap escaped ++ '"' :: cs) done = some (String.ofList (done.reverse ++ text), cs) := by
  induction text generalizing fuel done with
  | nil =>
      obtain ⟨fuel, rfl⟩ := Nat.exists_eq_succ_of_ne_zero (Nat.ne_of_gt enough)
      simp [readString?]
  | cons c rest ih =>
      obtain ⟨fuel, rfl⟩ := Nat.exists_eq_succ_of_ne_zero (Nat.ne_of_gt (Nat.zero_lt_of_lt enough))
      rw [List.flatMap_cons, List.append_assoc, readString?_escaped, ih (by simpa using enough)]
      simp

theorem readString?_text (s : String) :
    readString? ((s.toList.flatMap escaped ++ '"' :: cs).length + 1) (s.toList.flatMap escaped ++ '"' :: cs) [] =
      some (s, cs) := by
  -- The reader counts its steps by the characters that are left, and an escape has at least one.
  have longer (text : List Char) : text.length ≤ (text.flatMap escaped).length := by
    induction text with
    | nil => simp
    | cons c rest ih =>
        have := List.length_pos_iff.mpr (escaped_ne_nil c)
        simp only [List.flatMap_cons, List.length_append, List.length_cons]
        omega
  have enough := longer s.toList
  rw [readString?_flatMap s.toList (by simp only [List.length_append]; omega)]
  simp

end

def spelled (pieces : List String) : List Char :=
  pieces.flatMap String.toList

section

variable {rest : List String} {cs more : List Char} {fuel : Nat}

@[simp] theorem spelled_cons (piece : String) : spelled (piece :: rest) = piece.toList ++ spelled rest := rfl

mutual
theorem length_writePieces (j : Json) (rest : List String) :
    (spelled rest).length ≤ (spelled (writePieces j rest)).length :=
  match j with
  | .null | .bool true | .bool false | .integer _ | .decimal .. | .string _ | .array [] | .object [] => by
      simp only [writePieces, spelled_cons, List.length_append]
      omega
  | .array (item :: items) => by
      have first := length_writePieces item (writeItems items rest)
      have others := length_writeItems items rest
      simp only [writePieces, spelled_cons, List.length_append]
      omega
  | .object ((_, value) :: members) => by
      have first := length_writePieces value (writeMembers members rest)
      have others := length_writeMembers members rest
      simp only [writePieces, spelled_cons, List.length_append]
      omega

theorem length_writeItems (items : List Json) (rest : List String) :
    (spelled rest).length < (spelled (writeItems items rest)).length :=
  match items with
  | [] => Nat.lt_succ_self _
  | item :: items => by
      have first := length_writePieces item (writeItems items rest)
      have others := length_writeItems items rest
      simp only [writeItems, spelled_cons, List.length_append]
      omega

theorem length_writeMembers (members : List (String × Json)) (rest : List String) :
    (spelled rest).length < (spelled (writeMembers members rest)).length :=
  match members with
  | [] => Nat.lt_succ_self _
  | (_, value) :: members => by
      have first := length_writePieces value (writeMembers members rest)
      have others := length_writeMembers members rest
      simp only [writeMembers, spelled_cons, List.length_append]
      omega
end

theorem closed_writeItems (items : List Json) : Closed (spelled (writeItems items rest)) := by
  cases items <;> simp [Closed, writeItems]

theorem closed_writeMembers (members : List (String × Json)) : Closed (spelled (writeMembers members rest)) := by
  cases members <;> simp [Closed, writeMembers]

theorem toString_head (n : Int) : ∃ c more, (toString n).toList = c :: more ∧ (c.isDigit = true ∨ c = '-') := by
  cases n with
  | ofNat n =>
      obtain ⟨c, more, digits, digit⟩ := (numeral_toDigits n).head
      exact ⟨c, more, (Timestamp.toList_toString n).trans digits, .inl digit⟩
  | negSucc n => exact ⟨'-', _, toString_negSucc n, .inr rfl⟩

theorem isSpace_number {c : Char} (number : c.isDigit = true ∨ c = '-') : isSpace c = false := by
  rw [Bool.eq_false_iff]
  intro space
  have among : ((c = ' ' ∨ c = '\n') ∨ c = '\t') ∨ c = '\r' := by simpa [isSpace] using space
  rcases among with ((rfl | rfl) | rfl) | rfl <;> exact absurd number (by decide)

theorem readValue?_number {c : Char} (number : c.isDigit = true ∨ c = '-') :
    readValue? (fuel + 1) (c :: cs) = readNumber? (c :: cs) := by
  have kept : skipSpace (c :: cs) = c :: cs := by simp [skipSpace, isSpace_number number]
  rw [readValue?, kept]
  split
  case h_7 => rfl
  all_goals
    rename_i same
    obtain ⟨rfl, -⟩ := List.cons.inj same
    exact absurd number (by decide)

theorem readValue?_integer {n : Int} (fits : isWord64 n = true) (closed : Closed cs) :
    readValue? (fuel + 1) ((toString n).toList ++ cs) = some (.integer n, cs) := by
  obtain ⟨c, more, text, number⟩ := toString_head n
  have read := readNumber?_toString fits closed
  rw [text, List.cons_append] at read ⊢
  rw [readValue?_number number, read]

theorem toList_writeString (s : String) :
    (writeString s).toList ++ cs = '"' :: (s.toList.flatMap escaped ++ '"' :: cs) := by
  simp [writeString]

theorem skipSpace_string (text : List Char) : skipSpace ('"' :: text) = '"' :: text := rfl

theorem skipSpace_colon (text : List Char) : skipSpace (':' :: text) = ':' :: text := rfl

theorem skipSpace_bracket (text : List Char) : skipSpace ('[' :: text) = '[' :: text := rfl

theorem readValue?_string (s : String) :
    readValue? (fuel + 1) ((writeString s).toList ++ cs) = some (.string s, cs) := by
  rw [toList_writeString, readValue?, skipSpace_string]
  simp only [readString?_text]

def Opens (cs : List Char) : Prop :=
  ∃ c more, cs = c :: more ∧ isSpace c = false ∧ c ≠ ']'

theorem opens_writePieces {j : Json} (plain : j.isPlain = true) : Opens (spelled (writePieces j rest)) := by
  cases j with
  | null => exact ⟨_, _, rfl, by decide, by decide⟩
  | string s => exact ⟨_, _, (spelled_cons _).trans (toList_writeString s), by decide, by decide⟩
  | bool b => cases b <;> exact ⟨_, _, rfl, by decide, by decide⟩
  | integer n =>
      obtain ⟨c, more, text, number⟩ := toString_head n
      refine ⟨c, more ++ spelled rest, by rw [writePieces, spelled_cons, text]; rfl, isSpace_number number, ?_⟩
      rintro rfl
      exact absurd number (by decide)
  | decimal => exact absurd plain Bool.false_ne_true
  | array items => cases items <;> exact ⟨_, _, rfl, by decide, by decide⟩
  | object members => cases members <;> exact ⟨_, _, rfl, by decide, by decide⟩

theorem readValue?_array (opens : Opens cs) : readValue? (fuel + 1) ('[' :: cs) = readItems? fuel cs [] := by
  obtain ⟨c, more, rfl, shown, other⟩ := opens
  have kept : skipSpace (c :: more) = c :: more := by simp [skipSpace, shown]
  rw [readValue?, skipSpace_bracket]
  simp only [kept]
  split
  · rename_i same
    exact absurd (List.cons.inj same).1 other
  · rfl

theorem readValue?_object (name : String) :
    readValue? (fuel + 1) ('\x7b' :: ((writeString name).toList ++ cs)) =
      readMembers? fuel ((writeString name).toList ++ cs) [] := by
  rw [toList_writeString]
  rfl

theorem readItems?_more {item : Json} {done : List Json} (read : readValue? fuel cs = some (item, ',' :: more)) :
    readItems? (fuel + 1) cs done = readItems? fuel more (item :: done) := by
  rw [readItems?, read]
  rfl

theorem readItems?_last {item : Json} {done : List Json} (read : readValue? fuel cs = some (item, ']' :: more)) :
    readItems? (fuel + 1) cs done = some (.array (item :: done).reverse, more) := by
  rw [readItems?, read]
  rfl

section

variable {value : Json} {done : List (String × Json)}

theorem readMembers?_more (name : String) (read : readValue? fuel cs = some (value, ',' :: more)) :
    readMembers? (fuel + 1) ((writeString name).toList ++ ':' :: cs) done =
      readMembers? fuel more ((name, value) :: done) := by
  rw [toList_writeString, readMembers?, skipSpace_string]
  simp only [readString?_text, skipSpace_colon, read]
  rfl

theorem readMembers?_last (name : String) (read : readValue? fuel cs = some (value, '\x7d' :: more)) :
    readMembers? (fuel + 1) ((writeString name).toList ++ ':' :: cs) done =
      some (.object ((name, value) :: done).reverse, more) := by
  rw [toList_writeString, readMembers?, skipSpace_string]
  simp only [readString?_text, skipSpace_colon, read]
  rfl

end

section

variable (item : Json) (items : List Json) (name : String) (value : Json) (members : List (String × Json))

theorem spelled_array : spelled (writePieces (.array (item :: items)) rest) =
    '[' :: spelled (writePieces item (writeItems items rest)) := by
  simp [writePieces]

theorem spelled_object : spelled (writePieces (.object ((name, value) :: members)) rest) =
    '\x7b' :: ((writeString name).toList ++ ':' :: spelled (writePieces value (writeMembers members rest))) := by
  simp [writePieces]

theorem spelled_noItems : spelled (writeItems [] rest) = ']' :: spelled rest := rfl

theorem spelled_noMembers : spelled (writeMembers [] rest) = '\x7d' :: spelled rest := rfl

theorem spelled_items : spelled (writeItems (item :: items) rest) =
    ',' :: spelled (writePieces item (writeItems items rest)) := by
  simp [writeItems]

theorem spelled_members : spelled (writeMembers ((name, value) :: members) rest) =
    ',' :: ((writeString name).toList ++ ':' :: spelled (writePieces value (writeMembers members rest))) := by
  simp [writeMembers]

end

structure Reaches (fuel : Nat) (pieces rest : List String) : Prop where
  enough : (spelled pieces).length ≤ fuel + (spelled rest).length
  closed : Closed (spelled rest)

mutual
theorem readValue?_pieces (j : Json) (plain : j.isPlain = true) (fuel : Nat) (rest : List String)
    (reaches : Reaches fuel (writePieces j rest) rest) :
    readValue? (fuel + 1) (spelled (writePieces j rest)) = some (j, spelled rest) :=
  match j with
  | .null | .bool true | .bool false | .array [] | .object [] => by
      simp [writePieces, readValue?, skipSpace, isSpace, readWord?]
  | .integer n => readValue?_integer (by simpa [isPlain] using plain) reaches.closed
  | .decimal .. => absurd plain Bool.false_ne_true
  | .string s => readValue?_string s
  | .array (item :: items) => by
      have enough := reaches.enough
      have first : item.isPlain = true := by simp_all [isPlain, plainItems]
      rw [spelled_array] at enough ⊢
      rw [readValue?_array (opens_writePieces first)]
      exact readItems?_pieces (item :: items) [] plain fuel rest (spelled_items item items)
        (by simp only [List.length_cons] at enough; omega)
  | .object ((name, value) :: members) => by
      have enough := reaches.enough
      rw [spelled_object] at enough ⊢
      rw [readValue?_object]
      exact readMembers?_pieces ((name, value) :: members) [] plain fuel rest
        (spelled_members name value members) (by simp only [List.length_cons] at enough; omega)

-- The reader goes on in the same way after the bracket and after a comma, so one lemma tells what follows either.
theorem readItems?_pieces (items done : List Json) (plain : plainItems items = true) (fuel : Nat) (rest : List String)
    {cs : List Char} (text : spelled (writeItems items rest) = ',' :: cs)
    (enough : cs.length < fuel + (spelled rest).length) :
    readItems? fuel cs done = some (.array (done.reverse ++ items), spelled rest) :=
  match items with
  | [] => by simp [writeItems] at text
  | item :: items => by
      obtain ⟨first, others⟩ : item.isPlain = true ∧ plainItems items = true := by simpa [plainItems] using plain
      rw [spelled_items] at text
      obtain rfl := (List.cons.inj text).2
      -- The case split on the items that are left would unfold it.
      clear text
      have after := length_writePieces item (writeItems items rest)
      have later := length_writeItems items rest
      obtain ⟨fuel, rfl⟩ : ∃ less, fuel = less + 2 := Nat.exists_eq_add_of_le' (by omega)
      have read := readValue?_pieces item first fuel (writeItems items rest)
        ⟨by omega, closed_writeItems items⟩
      match items with
      | [] =>
          rw [spelled_noItems] at read
          rw [readItems?_last read, List.reverse_cons]
      | next :: items =>
          rw [spelled_items] at read after
          rw [readItems?_more read, readItems?_pieces (next :: items) (item :: done) others (fuel + 1) rest
            (spelled_items next items) (by rw [List.length_cons] at after; omega)]
          simp

theorem readMembers?_pieces (members done : List (String × Json)) (plain : plainMembers members = true) (fuel : Nat)
    (rest : List String) {cs : List Char} (text : spelled (writeMembers members rest) = ',' :: cs)
    (enough : cs.length < fuel + (spelled rest).length) :
    readMembers? fuel cs done = some (.object (done.reverse ++ members), spelled rest) :=
  match members with
  | [] => by simp [writeMembers] at text
  | (name, value) :: members => by
      obtain ⟨first, others⟩ : value.isPlain = true ∧ plainMembers members = true := by simpa [plainMembers] using plain
      rw [spelled_members] at text
      obtain rfl := (List.cons.inj text).2
      clear text
      have after := length_writePieces value (writeMembers members rest)
      have later := length_writeMembers members rest
      rw [List.length_append, List.length_cons] at enough
      obtain ⟨fuel, rfl⟩ : ∃ less, fuel = less + 2 := Nat.exists_eq_add_of_le' (by omega)
      have read := readValue?_pieces value first fuel (writeMembers members rest)
        ⟨by omega, closed_writeMembers members⟩
      match members with
      | [] =>
          rw [spelled_noMembers] at read
          rw [readMembers?_last name read, List.reverse_cons]
      | (other, next) :: members =>
          rw [spelled_members] at read after
          rw [readMembers?_more name read, readMembers?_pieces ((other, next) :: members) ((name, value) :: done) others
            (fuel + 1) rest (spelled_members other next members) (by rw [List.length_cons] at after; omega)]
          simp
end

theorem parse?_write {j : Json} (plain : j.isPlain = true) : parse? j.write = some j := by
  have text : j.write.toList = spelled (writePieces j []) := String.toList_join
  have read := readValue?_pieces j plain (spelled (writePieces j [])).length []
    ⟨by omega, by simp [Closed, spelled]⟩
  rw [parse?, text]
  simp only [read]
  rfl

end

end Reconciler.Json
