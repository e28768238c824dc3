import EmailVerifier.Redis.Resp

/-! Where the reader stops in what a server sends.

A value that holds no error is read to its end. One that does is read up to its first
error, and all that the value has after that is left in the stream.
-/

set_option autoImplicit false

namespace EmailVerifier.Redis
open Text Data

def Err.fatal : Err → Bool
  | .rejected _ => false
  | _ => true

def Failed (out : Except Err Reply) : Prop := ∃ err, out = .error err ∧ err.fatal = true

lemma readString_line (line rest : Str) (plain : 10 ∉ line) :
    readString (line ++ 10 :: rest) = some (line ++ [10], rest) := by
  induction line with
  | nil => rfl
  | cons b line ih =>
    have other : b ≠ 10 := fun same => plain (same ▸ List.mem_cons_self)
    simp [readString, other, ih fun member => plain (List.mem_cons_of_mem b member)]

lemma trimRight_crlf {s : Str} (plain : Plain s) : trimRight (s ++ crlf) crlf = s := by
  have kept : s.reverse.dropWhile (fun b => crlf.contains b) = s.reverse := by
    cases same : s.reverse with
    | nil => rfl
    | cons b more =>
      have member : b ∈ s := List.mem_reverse.mp (same ▸ List.mem_cons_self)
      exact List.dropWhile_cons_of_neg (by simp [crlf, plain b member])
  have ends : ∀ b ∈ crlf.reverse, crlf.contains b = true := by simp [crlf]
  unfold trimRight
  rw [List.reverse_append, List.dropWhile_append_of_pos ends, kept, List.reverse_reverse]

lemma formatInt_plain (n : Int) : Plain (formatInt n) := by
  intro b member
  rcases mem_formatInt n b member with rfl | ⟨low, -⟩
  · decide
  · exact ⟨fun same => absurd (same ▸ low) (by decide), fun same => absurd (same ▸ low) (by decide)⟩

lemma parseInt_formatInt_nat (n : Nat) : parseInt (formatInt n) = if n < 2 ^ 63 then some (n : Int) else none := by
  have written : formatInt n = formatUint n := if_neg (by omega)
  rw [written, parseInt_formatUint]

lemma readValue_header {kind : UInt8} {arg : Str} (known : kind ≠ 13 ∧ kind ≠ 10) (plain : Plain arg) (depth : Nat)
    (rest : Str) :
    readValue (depth + 1) (header kind arg ++ rest) = readKind (readElements (readValue depth)) (kind :: arg) rest := by
  have all : Plain (kind :: arg) := List.forall_mem_cons.mpr ⟨known, plain⟩
  have line : header kind arg ++ rest = (kind :: arg ++ [13]) ++ 10 :: rest := by simp [header, crlf]
  have lf : 10 ∉ kind :: arg ++ [13] := by
    intro member
    rcases List.mem_append.mp member with inside | last
    · exact (all _ inside).2 rfl
    · cases List.mem_singleton.mp last
  have trimmed : trimRight (kind :: arg ++ [13] ++ [10]) crlf = kind :: arg := by
    rw [List.append_assoc]
    exact trimRight_crlf all
  simp only [readValue, line, readString_line _ _ lf, trimmed]

lemma copyN_eq (fuel n : Nat) (b s : Str) (enough : n ≤ fuel) :
    copyN fuel n b s = if s.length < n then (none, []) else (some (b ++ s.take n), s.drop n) := by
  induction fuel generalizing n b s with
  | zero =>
    obtain rfl := Nat.le_zero.mp enough
    simp [copyN]
  | succ fuel ih =>
    unfold copyN
    by_cases done : n = 0
    · simp [done]
    obtain ⟨got, size⟩ : ∃ got, got = min (min n minRead) s.length := ⟨_, rfl⟩
    have fits : got ≤ n ∧ got ≤ s.length := by omega
    simp only [if_neg done, ← size]
    split
    · rename_i none
      have dry : s.length = 0 := by simp only [minRead] at size; omega
      rw [if_pos (by omega)]
    · rename_i some
      rw [ih _ _ _ (by omega), List.length_drop, List.drop_drop, List.append_assoc, ← List.take_add]
      have less : s.length - got < n - got ↔ s.length < n := by omega
      simp only [less, Nat.add_sub_cancel' fits.1]

lemma readBulk_eq (n : Nat) (s : Str) : readBulk n s =
    if s.length < n + 2 then (.error .transport, []) else (.ok (.text (s.take n)), s.drop (n + 2)) := by
  have either : (if n ≤ smallBulk then readFull (n + 2) s else copyN (n + 2) (n + 2) [] s) = readFull (n + 2) s := by
    rw [copyN_eq _ _ _ _ (Nat.le_refl _)]
    exact ite_self _
  unfold readBulk
  rw [either, readFull]
  by_cases short : s.length < n + 2
  · rw [if_pos short, if_pos short]
  · rw [if_neg short, if_neg short]
    simp [List.take_take]

lemma readBulk_exact (s rest : Str) : readBulk s.length (s ++ crlf ++ rest) = (.ok (.text s), rest) := by
  rw [readBulk_eq, if_neg (by simp [crlf])]
  simp [crlf]

-- A length is within the limits, or fatal.
lemma readKind_bulk (elements : Nat → List Reply → Str → Read) (n : Nat) (rest : Str) :
    (maxBulkLen < n ∧ Failed (readKind elements (36 :: formatInt n) rest).1) ∨
      readKind elements (36 :: formatInt n) rest = readBulk n rest := by
  have length := parseInt_formatInt_nat n
  have minus : ¬ (n : Int) < 0 := by omega
  split at length
  · by_cases beyond : maxBulkLen < (n : Int)
    · exact .inl ⟨beyond, .bulkOver n, by simp [readKind, length, minus, beyond], rfl⟩
    · right
      simp [readKind, length, minus, beyond]
  · have beyond : maxBulkLen < (n : Int) := by simp only [maxBulkLen]; omega
    exact .inl ⟨beyond, .badBulk (36 :: formatInt n), by simp [readKind, length], rfl⟩

lemma readKind_array (elements : Nat → List Reply → Str → Read) (n : Nat) (rest : Str) :
    (maxArrayLen < n ∧ Failed (readKind elements (42 :: formatInt n) rest).1) ∨
      readKind elements (42 :: formatInt n) rest = elements n [] rest := by
  have length := parseInt_formatInt_nat n
  have minus : ¬ (n : Int) < 0 := by omega
  split at length
  · by_cases beyond : maxArrayLen < (n : Int)
    · exact .inl ⟨beyond, .arrayOver n, by simp [readKind, length, minus, beyond], rfl⟩
    · right
      simp [readKind, length, minus, beyond]
  · have beyond : maxArrayLen < (n : Int) := by simp only [maxArrayLen]; omega
    exact .inl ⟨beyond, .badArray (42 :: formatInt n), by simp [readKind, length], rfl⟩

def bulk (a : Str) : Str := header 36 (formatInt a.length) ++ a ++ crlf

lemma encode_eq (args : List Str) : encode args = header 42 (formatInt args.length) ++ args.flatMap bulk := by
  have each : bulk = fun a => lit "$" ++ formatInt a.length ++ crlf ++ a ++ crlf := rfl
  rw [each]
  rfl

lemma readElements_bulks (depth : Nat) (args : List Str) (within : ∀ a ∈ args, a.length ≤ maxBulkLen)
    (out : List Reply) (rest : Str) :
    readElements (readValue (depth + 1)) args.length out (args.flatMap bulk ++ rest) =
      (.ok (.many (out ++ args.map .text)), rest) := by
  induction args generalizing out with
  | nil => simp [readElements]
  | cons a args ih =>
    obtain ⟨here, others⟩ := List.forall_mem_cons.mp within
    have first : readValue (depth + 1) (bulk a ++ (args.flatMap bulk ++ rest)) =
        (.ok (.text a), args.flatMap bulk ++ rest) := by
      rw [bulk, List.append_assoc, List.append_assoc, readValue_header (by decide) (formatInt_plain _)]
      rcases readKind_bulk (readElements (readValue depth)) a.length (a ++ (crlf ++ (args.flatMap bulk ++ rest))) with
        ⟨beyond, -⟩ | same
      · exact absurd here (Int.not_le.mpr beyond)
      · rw [same, ← List.append_assoc, readBulk_exact]
    rw [List.flatMap_cons, List.append_assoc, List.length_cons, readElements, first]
    have rest := ih others (out ++ [.text a])
    rwa [List.append_assoc] at rest

/-- A command within the limits is read back argument by argument, and nothing after it is
touched. -/
theorem readReply_encode (args : List Str) (rest : Str) (few : args.length ≤ 2 ^ 20)
    (within : ∀ a ∈ args, a.length ≤ 512 * 2 ^ 20) :
    readReply (encode args ++ rest) = (.ok (.many (args.map .text)), rest) := by
  have few' : (args.length : Int) ≤ maxArrayLen := by simp only [maxArrayLen]; omega
  have within' : ∀ a ∈ args, (a.length : Int) ≤ maxBulkLen := by
    intro a member
    have := within a member
    simp only [maxBulkLen]
    omega
  rw [encode_eq, List.append_assoc]
  unfold readReply
  rw [readValue_header (by decide) (formatInt_plain _)]
  rcases readKind_array (readElements (readValue maxDepth)) args.length (args.flatMap bulk ++ rest) with
    ⟨beyond, -⟩ | same
  · exact absurd few' (Int.not_le.mpr beyond)
  · rw [same]
    exact readElements_bulks _ args within' [] rest

theorem command_read_back : readReply (encode [lit "SET", [], [13, 10, 0]] ++ lit "+OK\r\n") =
    (.ok (.many [.text (lit "SET"), .text [], .text [13, 10, 0]]), lit "+OK\r\n") :=
  readReply_encode [lit "SET", [], [13, 10, 0]] (lit "+OK\r\n") (by decide) (by decide)

-- Without an error nothing is left.
mutual
lemma leftover_of_ok {v : Value} {reply : Reply} (said : decode v = .ok reply) : leftover v = [] := by
  match v with
  | .array elems =>
    rw [decode] at said
    rw [leftover]
    cases all : decodeAll elems with
    | error err =>
      rw [all] at said
      cases said
    | ok replies => exact leftoverAll_of_ok all
  | .simple _ | .error _ | .int _ _ | .bulk _ | .null | .nullArray => simp only [leftover]
lemma leftoverAll_of_ok {elems : List Value} {replies : List Reply} (said : decodeAll elems = .ok replies) :
    leftoverAll elems = [] := by
  match elems with
  | [] => simp only [leftoverAll]
  | v :: more =>
    rw [decodeAll] at said
    rw [leftoverAll]
    cases first : decode v with
    | error err =>
      rw [first] at said
      cases said
    | ok reply =>
      cases others : decodeAll more with
      | error err =>
        rw [first, others] at said
        cases said
      | ok replies => exact leftoverAll_of_ok others
end

lemma readElements_encode {depth : Nat} (reads : ∀ v rest, Failed (readValue depth (encodeValue v ++ rest)).1 ∨
    readValue depth (encodeValue v ++ rest) = (decode v, leftover v ++ rest)) (elems : List Value) (out : List Reply) (rest : Str) :
    Failed (readElements (readValue depth) elems.length out (encodeValues elems ++ rest)).1 ∨
      readElements (readValue depth) elems.length out (encodeValues elems ++ rest) =
        ((decodeAll elems).map fun more => .many (out ++ more), leftoverAll elems ++ rest) := by
  induction elems generalizing out with
  | nil =>
    right
    simp [readElements, encodeValues, decodeAll, leftoverAll, Except.map]
  | cons v more ih =>
    rw [encodeValues, List.append_assoc, List.length_cons, readElements]
    rcases reads v (encodeValues more ++ rest) with ⟨err, failed, fatal⟩ | read
    · left
      refine ⟨err, ?_, fatal⟩
      generalize readValue depth (encodeValue v ++ (encodeValues more ++ rest)) = out' at failed
      obtain ⟨result, left⟩ := out'
      cases failed
      rfl
    · rw [read]
      cases said : decode v with
      | error err =>
        right
        simp [decodeAll, leftoverAll, said, Except.map, bind, Except.bind]
      | ok first =>
        simp only [leftover_of_ok said, List.nil_append]
        rcases ih (out ++ [first]) with failed | same
        · exact .inl failed
        · right
          rw [leftoverAll, decodeAll, said, same]
          cases decodeAll more <;> simp [Except.map, bind, Except.bind, pure, Except.pure]

/-- A value is read up to its first error, unless it is beyond the reader's limits. -/
lemma readValue_encode (depth : Nat) (v : Value) (rest : Str) :
    Failed (readValue depth (encodeValue v ++ rest)).1 ∨
      readValue depth (encodeValue v ++ rest) = (decode v, leftover v ++ rest) := by
  induction depth generalizing v rest with
  | zero => exact .inl ⟨.nested, rfl, rfl⟩
  | succ depth ih =>
    match v with
    | .simple s =>
      rw [encodeValue, readValue_header (by decide) s.plain]
      exact .inr rfl
    | .error s =>
      rw [encodeValue, readValue_header (by decide) s.plain]
      exact .inr rfl
    | .int n fits =>
      rw [encodeValue, readValue_header (by decide) (formatInt_plain n)]
      right
      simp [readKind, parseInt_formatInt fits, decode, leftover]
    | .bulk s =>
      rw [encodeValue, List.append_assoc, List.append_assoc, readValue_header (by decide) (formatInt_plain _)]
      rcases readKind_bulk (readElements (readValue depth)) s.length (s ++ (crlf ++ rest)) with ⟨-, failed⟩ | same
      · exact .inl failed
      · rw [same, ← List.append_assoc, readBulk_exact]
        exact .inr rfl
    | .null =>
      rw [encodeValue, readValue_header (by decide) (by decide)]
      exact .inr rfl
    | .nullArray =>
      rw [encodeValue, readValue_header (by decide) (by decide)]
      exact .inr rfl
    | .array elems =>
      rw [encodeValue, List.append_assoc, readValue_header (by decide) (formatInt_plain _)]
      rcases readKind_array (readElements (readValue depth)) elems.length (encodeValues elems ++ rest) with ⟨-, failed⟩ | same
      · exact .inl failed
      · rw [same]
        rcases readElements_encode ih elems [] rest with failed | same
        · exact .inl failed
        · rw [same, decode, leftover]
          exact .inr rfl

/-- More in the stream does not change what is read, as long as it did not run out. -/
def Steady (read : Str → Read) : Prop :=
  ∀ s more, (read s).1 ≠ .error .transport → read (s ++ more) = ((read s).1, (read s).2 ++ more)

lemma readString_more {s line rest : Str} (read : readString s = some (line, rest)) (more : Str) :
    readString (s ++ more) = some (line, rest ++ more) := by
  induction s generalizing line with
  | nil => cases read
  | cons b s ih =>
    simp only [readString, List.cons_append] at read ⊢
    split
    · rename_i lf
      rw [if_pos lf] at read
      cases read
      rfl
    · rename_i other
      rw [if_neg other] at read
      obtain ⟨⟨line', rest'⟩, inner, same⟩ := Option.map_eq_some_iff.mp read
      cases same
      rw [ih inner]
      rfl

lemma readBulk_steady (n : Nat) : Steady (readBulk n) := by
  intro s more enough
  rw [readBulk_eq] at enough ⊢
  rw [readBulk_eq]
  split at enough
  · exact (enough rfl).elim
  · rename_i long
    rw [if_neg long, if_neg (by rw [List.length_append]; omega)]
    rw [List.take_append_of_le_length (by omega), List.drop_append_of_le_length (by omega)]

lemma readElements_steady {read : Str → Read} (steady : Steady read) (n : Nat) (out : List Reply) :
    Steady (readElements read n out) := by
  induction n generalizing out with
  | zero => exact fun _ _ _ => rfl
  | succ n ih =>
    intro s more enough
    have here := steady s more
    simp only [readElements] at enough ⊢
    generalize read s = first at enough here
    obtain ⟨result, rest⟩ := first
    cases result with
    | error err =>
      rw [here enough]
    | ok v =>
      rw [here (by simp)]
      exact ih _ rest more enough

lemma readKind_steady {elements : Nat → List Reply → Str → Read} (steady : ∀ n out, Steady (elements n out)) (line : Str) :
    Steady (readKind elements line) := by
  intro rest more enough
  cases line with
  | nil => rfl
  | cons kind arg =>
    by_cases text : kind = 43
    · simp [readKind, text]
    by_cases rejected : kind = 45
    · simp [readKind, rejected]
    by_cases int : kind = 58
    · cases number : parseInt arg <;> simp [readKind, int, number]
    by_cases bulk : kind = 36
    · cases number : parseInt arg with
      | none => simp [readKind, bulk, number]
      | some n =>
        by_cases minus : n < 0
        · simp [readKind, bulk, number, minus]
        by_cases beyond : maxBulkLen < n
        · simp [readKind, bulk, number, minus, beyond]
        have through (rest : Str) : readKind elements (kind :: arg) rest = readBulk n.toNat rest := by
          simp [readKind, bulk, number, minus, beyond]
        rw [through] at enough
        rw [through, through]
        exact readBulk_steady _ rest more enough
    by_cases array : kind = 42
    · cases number : parseInt arg with
      | none => simp [readKind, array, number]
      | some n =>
        by_cases minus : n < 0
        · simp [readKind, array, number, minus]
        by_cases beyond : maxArrayLen < n
        · simp [readKind, array, number, minus, beyond]
        have through (rest : Str) : readKind elements (kind :: arg) rest = elements n.toNat [] rest := by
          simp [readKind, array, number, minus, beyond]
        rw [through] at enough
        rw [through, through]
        exact steady _ _ rest more enough
    simp [readKind, text, rejected, int, bulk, array]

lemma readValue_steady (depth : Nat) : Steady (readValue depth) := by
  induction depth with
  | zero => exact fun _ _ _ => rfl
  | succ depth ih =>
    intro s more enough
    simp only [readValue] at enough ⊢
    cases read : readString s with
    | none =>
      rw [read] at enough
      exact (enough rfl).elim
    | some found =>
      obtain ⟨line, rest⟩ := found
      rw [read] at enough
      rw [readString_more read more]
      exact readKind_steady (readElements_steady ih) _ rest more enough

/-- Of a value on its way any part may have arrived: the reader fails for good, or says what
the value says and leaves what comes after its first error, arrived or not. -/
lemma readReply_arrived (v : Value) {arrived more : Str} (sent : encodeValue v = arrived ++ more) :
    Failed (readReply arrived).1 ∨ ((readReply arrived).1 = decode v ∧ (readReply arrived).2 ++ more = leftover v) := by
  by_cases out : (readReply arrived).1 = .error .transport
  · exact .inl ⟨.transport, out, rfl⟩
  have whole := readValue_steady (maxDepth + 1) arrived more out
  have known := readValue_encode (maxDepth + 1) v []
  rw [List.append_nil, List.append_nil, sent, whole] at known
  rcases known with failed | same
  · exact .inl failed
  · exact .inr (Prod.mk.inj same)

end EmailVerifier.Redis
