import EmailVerifier.Prober.Classify

/-! What a class says of the reply it was read from.

The classifier looks for this node's names as whole tokens, for phrases and for the
enhanced code. Here its decisions are read backwards: what the reply was like if it ended
up as a verdict, and what difference the names make.
-/

set_option autoImplicit false

namespace EmailVerifier.Prober
open Text

/-- A text that a token may follow: nothing that would continue a name is right before it. -/
def EndsApart (before : Str) : Prop := ∀ b, before.getLast? = some b → tokenByte b = false ∧ b ≠ 46

/-- A text that may follow a token: no byte of a name, and a dot only at the end of a sentence. -/
def StartsApart : Str → Prop
  | [] => True
  | b :: rest => tokenByte b = false ∧ (b = 46 → ∀ c, rest.head? = some c → tokenByte c = false)

def WholeToken (t tok : Str) : Prop :=
  ∃ before after, t = before ++ tok ++ after ∧ EndsApart before ∧ StartsApart after

/-- The tests of `containsToken` at one occurrence. -/
def edgeBefore (t : Str) (first : Nat) : Bool :=
  first = 0 || (t[first - 1]?.any fun b => !tokenByte b && b != 46)

def edgeAfter (t : Str) (stop : Nat) : Bool :=
  stop = t.length || (t[stop]?.any fun b => !tokenByte b &&
    (b != 46 || stop + 1 = t.length || (t[stop + 1]?.any fun b => !tokenByte b)))

lemma containsTokenFrom_succ (t tok : Str) (fuel start : Nat) :
    containsTokenFrom t tok (fuel + 1) start =
      match index (t.drop start) tok with
      | none => false
      | some i =>
        if edgeBefore t (start + i) && edgeAfter t (start + i + tok.length) then true
        else containsTokenFrom t tok fuel (start + i + 1) := rfl

lemma containsTokenFrom_iff {t tok : Str} (some : tok ≠ []) {fuel start : Nat} (enough : t.length ≤ start + fuel) :
    containsTokenFrom t tok fuel start = true ↔
      ∃ i, start ≤ i ∧ tok <+: t.drop i ∧ (edgeBefore t i && edgeAfter t (i + tok.length)) = true := by
  induction fuel generalizing start with
  | zero =>
    constructor
    · intro found
      cases found
    · rintro ⟨i, later, occurs, -⟩
      exact absurd occurs (not_prefix_drop some (by omega))
  | succ fuel ih =>
    rw [containsTokenFrom_succ]
    cases found : index (t.drop start) tok with
    | none =>
      have nowhere : ∀ i, start ≤ i → ¬ tok <+: t.drop i := by
        intro i later
        have missing := index_none found (i - start)
        rwa [List.drop_drop, Nat.add_sub_cancel' later] at missing
      constructor
      · intro yes
        cases yes
      · rintro ⟨i, later, occurs, -⟩
        exact absurd occurs (nowhere i later)
    | some i =>
      obtain ⟨occurs, first⟩ := index_some found
      rw [List.drop_drop] at occurs
      by_cases whole : (edgeBefore t (start + i) && edgeAfter t (start + i + tok.length)) = true
      · simp only [whole, if_true, true_iff]
        exact ⟨start + i, by omega, occurs, whole⟩
      · simp only [whole]
        rw [if_neg Bool.false_ne_true, ih (by omega)]
        constructor
        · rintro ⟨j, later, rest⟩
          exact ⟨j, by omega, rest⟩
        · rintro ⟨j, later, there, apart⟩
          refine ⟨j, ?_, there, apart⟩
          -- The occurrence is not before the first one, and it is not the first one.
          by_contra early
          rcases Nat.lt_or_ge j (start + i) with before | same
          · have missing := first (j - start) (by omega)
            rw [List.drop_drop, Nat.add_sub_cancel' later] at missing
            exact missing there
          · have here : j = start + i := by omega
            exact whole (here ▸ apart)

lemma edgeBefore_iff (before rest : Str) : edgeBefore (before ++ rest) before.length = true ↔ EndsApart before := by
  unfold edgeBefore EndsApart
  rcases List.eq_nil_or_concat before with rfl | ⟨front, b, rfl⟩
  · simp
  · simp

lemma edgeAfter_iff (front after : Str) : edgeAfter (front ++ after) front.length = true ↔ StartsApart after := by
  unfold edgeAfter
  rcases after with _ | ⟨b, _ | ⟨c, rest⟩⟩
  · simp [StartsApart]
  · simp [StartsApart]
  · by_cases dot : b = 46
    · simp [StartsApart, dot]
    · simp [StartsApart, dot]

lemma containsToken_iff {t tok : Str} (some : tok ≠ []) : containsToken t tok = true ↔ WholeToken t tok := by
  unfold containsToken
  rw [containsTokenFrom_iff some (by omega)]
  constructor
  · rintro ⟨i, -, ⟨after, rest⟩, whole⟩
    have inside : i ≤ t.length := by
      by_contra past
      exact not_prefix_drop some (by omega) ⟨after, rest⟩
    obtain ⟨before, rfl, same⟩ : ∃ before, before.length = i ∧ t = before ++ (tok ++ after) :=
      ⟨t.take i, by simp [inside], by rw [rest, List.take_append_drop]⟩
    rw [Bool.and_eq_true] at whole
    refine ⟨before, after, by rw [same, List.append_assoc], ?_, ?_⟩
    · rw [← edgeBefore_iff before (tok ++ after), ← same]
      exact whole.1
    · rw [← edgeAfter_iff (before ++ tok) after, List.append_assoc, ← same, List.length_append]
      exact whole.2
  · rintro ⟨before, after, rfl, ends, starts⟩
    refine ⟨before.length, by omega, by simp, ?_⟩
    rw [Bool.and_eq_true, ← List.length_append, edgeAfter_iff, List.append_assoc, edgeBefore_iff]
    exact ⟨ends, starts⟩

/-- The byte before an occurrence, read as the code reads it: nothing if it is outside the text. -/
def readBefore (t : Str) (first : Nat) : Option Bool :=
  if first = 0 then some true else (fun b => !tokenByte b && b != 46) <$> t[first - 1]?

/-- The two bytes after an occurrence. -/
def readAfter (t : Str) (stop : Nat) : Option Bool := do
  if stop = t.length then return true
  let b ← t[stop]?
  if tokenByte b then return false
  if b ≠ 46 ∨ stop + 1 = t.length then return true
  return !tokenByte (← t[stop + 1]?)

/-- The search of `containsToken` with these reads: there is no result where a slice or a byte
is taken outside the text, or where the rounds do not suffice. -/
def searchToken (t tok : Str) : Nat → Nat → Option Bool
  | 0, _ => none
  | rounds + 1, start => do
    guard (start ≤ t.length)
    match index (t.drop start) tok with
    | none => return false
    | some i =>
      let before ← readBefore t (start + i)
      let after ← readAfter t (start + i + tok.length)
      if before && after then return true
      searchToken t tok rounds (start + i + 1)

lemma readBefore_eq {t : Str} {first : Nat} (inside : first ≤ t.length) :
    readBefore t first = some (edgeBefore t first) := by
  unfold readBefore edgeBefore
  by_cases start : first = 0
  · simp [start]
  · have there : first - 1 < t.length := by omega
    simp [start, List.getElem?_eq_getElem there]

lemma readAfter_eq {t : Str} {stop : Nat} (inside : stop ≤ t.length) : readAfter t stop = some (edgeAfter t stop) := by
  unfold readAfter edgeAfter
  by_cases ended : stop = t.length
  · simp [ended]
  have there : stop < t.length := by omega
  cases named : tokenByte t[stop] with
  | true => simp [ended, there, named]
  | false =>
    by_cases dot : t[stop] = 46
    · by_cases last : stop + 1 = t.length
      · simp [ended, there, named, last]
      · have next : stop + 1 < t.length := by omega
        rw [dot] at named
        simp [ended, there, dot, named, last, next]
    · simp [ended, there, named, dot]

lemma searchToken_eq {t tok : Str} (named : tok ≠ []) {rounds start : Nat} (inside : start ≤ t.length)
    (enough : t.length < start + rounds) :
    searchToken t tok rounds start = some (containsTokenFrom t tok rounds start) := by
  induction rounds generalizing start with
  | zero => omega
  | succ rounds ih =>
    rw [searchToken, containsTokenFrom_succ, guard, if_pos inside]
    change (match index (t.drop start) tok with | none => _ | some i => _) = _
    cases found : index (t.drop start) tok with
    | none => rfl
    | some i =>
      -- An occurrence lies within the text, so its edges do.
      have occurs := (index_some found).1
      rw [List.drop_drop] at occurs
      have within := occurs.length_le
      rw [List.length_drop] at within
      have long := List.length_pos_iff.mpr named
      dsimp only
      rw [readBefore_eq (by omega), readAfter_eq (by omega)]
      change (if (edgeBefore t (start + i) && edgeAfter t (start + i + tok.length)) = true then _ else _) = _
      split
      · rfl
      · exact ih (by omega) (by omega)

/-- The search ends with a result after as many rounds as the text has bytes and one more, and
finds the token exactly where it stands as a whole one. -/
theorem containsToken_search {t tok : Str} (named : tok ≠ []) {rounds : Nat} (enough : t.length < rounds) :
    searchToken t tok rounds 0 = some (containsToken t tok) ∧ (containsToken t tok = true ↔ WholeToken t tok) := by
  refine ⟨?_, containsToken_iff named⟩
  rw [searchToken_eq named (Nat.zero_le _) (by omega)]
  congr 1
  rw [Bool.eq_iff_iff, containsToken, containsTokenFrom_iff named (by omega), containsTokenFrom_iff named (by omega)]

theorem overlapping_found : searchToken (lit "ba a a") (lit "a a") 7 0 = some true :=
  (containsToken_search (by decide) (by decide)).1

def greyWorded (t : Str) : Bool := contains t (lit "greylist") || contains t (lit "grey list")

/-- The decision of `classifyPermanent`, by what it found in the text. -/
def permanentBy (ec : Str) (mailbox sender sending overQuota : Bool) : Class :=
  if senderCodes.contains ec then .policy
  else if sender && !mailbox then .policy
  else if overQuota && sending && (ec = [] || subject ec = 7) then .policy
  else if overQuota && !sending && (ec = [] || subject ec = 2) then .valid
  else if subject ec = 1 then .invalid
  else if subject ec = 2 then (if detail ec = 2 then .valid else .invalid)
  else if subject ec = 4 || subject ec = 7 then (if mailbox then .invalid else .policy)
  else if mailbox then .invalid
  else if sender then .policy
  else .invalid

section
variable {ec : Str} {mailbox sender sending overQuota : Bool}

lemma permanentBy_sender : permanentBy ec false true sending overQuota = .policy := by simp [permanentBy]

lemma permanentBy_mailbox :
    permanentBy ec true sender sending overQuota = permanentBy ec true false sending overQuota := by
  simp [permanentBy]

lemma permanentBy_invalid (is : permanentBy ec mailbox sender sending overQuota = .invalid) :
    ec ∉ senderCodes ∧ ¬ (subject ec = 2 ∧ detail ec = 2) ∧
      (mailbox = true ∨ subject ec ≠ 4 ∧ subject ec ≠ 7 ∧ sender = false) := by
  unfold permanentBy at is
  grind

lemma permanentBy_valid (is : permanentBy ec mailbox sender sending overQuota = .valid) :
    subject ec = 2 ∧ detail ec = 2 ∨ overQuota = true ∧ sending = false ∧ (ec = [] ∨ subject ec = 2) := by
  unfold permanentBy at is
  grind

lemma permanentBy_policy (addressing : subject ec ≠ 1) (mailbox : subject ec ≠ 2) :
    permanentBy ec false sender sending overQuota = .policy ↔ ec ∈ senderCodes ∨ sender = true ∨ subject ec = 4 ∨
      subject ec = 7 ∨ overQuota = true ∧ sending = true ∧ ec = [] := by
  have bare : ec = [] → subject ec = -1 := by
    rintro rfl
    rfl
  unfold permanentBy
  grind

lemma permanentBy_full (addressing : subject ec ≠ 1) :
    permanentBy ec false sender sending true ≠ .invalid ↔ ec ∈ senderCodes ∨ sender = true ∨ ec = [] ∨ subject ec = 4 ∨
      subject ec = 7 ∨ subject ec = 2 ∧ (detail ec = 2 ∨ sending = false) := by
  unfold permanentBy
  grind

end

section
variable [Unicode] {code : Int} {text t : Str} {id : Identity}

def Identity.Names (id : Identity) (t : Str) : Prop :=
  ∃ part ∈ [id.sourceIP, id.helo, id.mailFromDomain],
    toLower (trimSpace part) ≠ [] ∧ WholeToken t (toLower (trimSpace part))

lemma namedIn_iff : id.namedIn t = true ↔ id.Names t := by
  unfold Identity.namedIn Identity.tokens Identity.Names
  simp only [List.any_eq_true, List.mem_filter, List.mem_map, decide_eq_true_eq]
  constructor
  · rintro ⟨tok, ⟨⟨part, member, rfl⟩, some⟩, found⟩
    exact ⟨part, member, some, (containsToken_iff some).mp found⟩
  · rintro ⟨part, member, some, whole⟩
    exact ⟨_, ⟨⟨part, member, rfl⟩, some⟩, (containsToken_iff some).mpr whole⟩

/-- The names count as one more sender hint, except under a code about the recipient. -/
def blamesSender (id : Identity) (t : Str) : Bool :=
  hasAny t senderHints || (id.namedIn t && subject (enhancedCode t) ≠ 1 && subject (enhancedCode t) ≠ 2)

lemma classifyPermanent_eq (t : Str) (id : Identity) :
    classifyPermanent t id = permanentBy (enhancedCode t) (hasAny t mailboxHints) (blamesSender id t)
      (sendingQuotaRe.isMatch t) (overQuotaRe.isMatch t) := rfl

lemma blamesSender_iff : blamesSender id t = true ↔ hasAny t senderHints = true ∨
    id.Names t ∧ subject (enhancedCode t) ≠ 1 ∧ subject (enhancedCode t) ≠ 2 := by
  unfold blamesSender
  rw [Bool.or_eq_true, Bool.and_eq_true, Bool.and_eq_true, namedIn_iff, and_assoc]
  simp only [decide_eq_true_eq]

lemma blamesSender_nobody (t : Str) : blamesSender ⟨[], [], []⟩ t = hasAny t senderHints := by
  simp [blamesSender, show (⟨[], [], []⟩ : Identity).namedIn t = false from rfl]

/-- What is settled before the wording of a permanent refusal is looked at. -/
structure Forejudged (code : Int) (t : Str) (c : Class) : Prop where
  innocent : c ≠ .invalid
  accepted : c = .valid → 200 ≤ code ∧ code ≤ 299
  outside : code < 200 ∨ 599 < code → c = .unknown
  grey : 500 ≤ code → code ≤ 599 → code ≠ 503 → greyWorded t = true

/-- The code and greylisting settle the class, or it is a permanent refusal. -/
lemma classifyAs_cases (code : Int) (text : Str) :
    (∃ c, Forejudged code (toLower text) c ∧ ∀ id, classifyAs code text id = c) ∨
      500 ≤ code ∧ code ≤ 599 ∧ code ≠ 503 ∧ greyWorded (toLower text) = false ∧
        ∀ id, classifyAs code text id = classifyPermanent (toLower text) id := by
  unfold classifyAs
  by_cases outside : code < 200 ∨ code > 599
  · simp only [if_pos outside]
    exact .inl ⟨.unknown, ⟨by simp, by simp, by simp, by omega⟩, fun _ => rfl⟩
  simp only [if_neg outside]
  change (∃ c, _ ∧ ∀ id, (if greyWorded (toLower text) = true then _ else _) = c) ∨ 500 ≤ code ∧ _ ∧ _ ∧ _ ∧
    ∀ id, (if greyWorded (toLower text) = true then _ else _) = _
  by_cases grey : greyWorded (toLower text) = true
  · simp only [if_pos grey]
    exact .inl ⟨.deferred, ⟨by simp, by simp, by omega, fun _ _ _ => grey⟩, fun _ => rfl⟩
  simp only [if_neg grey]
  by_cases permanent : 500 ≤ code
  · by_cases sequence : code = 503
    · refine .inl ⟨.badSequence, ⟨by simp, by simp, by omega, by omega⟩, fun _ => ?_⟩
      simp [sequence]
    · refine .inr ⟨permanent, by omega, sequence, by simpa using grey, fun _ => ?_⟩
      have temporary : ¬ code < 500 := by omega
      have accepted : ¬ code < 300 := by omega
      have early : ¬ code < 400 := by omega
      have slow : code ≠ 421 := by omega
      simp [temporary, accepted, early, slow, sequence]
  · simp only [if_neg (show code ≠ 503 by omega)]
    by_cases tls : 400 ≤ code ∧ code < 500 ∧ tlsRe.isMatch (toLower text) = true
    · simp only [if_pos tls]
      exact .inl ⟨.policy, ⟨by simp, by simp, by omega, by omega⟩, fun _ => rfl⟩
    simp only [if_neg tls]
    by_cases slow : code = 421
    · simp only [if_pos slow]
      exact .inl ⟨.throttled, ⟨by simp, by simp, by omega, by omega⟩, fun _ => rfl⟩
    simp only [if_neg slow]
    by_cases accepted : 200 ≤ code ∧ code < 300
    · simp only [if_pos accepted]
      exact .inl ⟨.valid, ⟨by simp, by omega, by omega, by omega⟩, fun _ => rfl⟩
    simp only [if_neg accepted]
    by_cases temporary : 400 ≤ code ∧ code < 500
    · simp only [if_pos temporary]
      refine .inl ⟨_, ⟨?_, ?_, by omega, by omega⟩, fun _ => rfl⟩ <;> split <;> simp
    · simp only [if_neg temporary, if_pos (show code < 400 by omega)]
      exact .inl ⟨.unknown, ⟨by simp, by simp, by omega, by omega⟩, fun _ => rfl⟩

lemma classifyAs_permanent (permanent : 500 ≤ code ∧ code ≤ 599) (sequence : code ≠ 503)
    (prompt : greyWorded (toLower text) = false) : classifyAs code text id = classifyPermanent (toLower text) id := by
  rcases classifyAs_cases code text with ⟨c, settled, -⟩ | ⟨-, -, -, -, same⟩
  · have grey := settled.grey permanent.1 permanent.2 sequence
    rw [prompt] at grey
    cases grey
  · exact same id

structure BlamesMailbox (id : Identity) (code : Int) (t : Str) : Prop where
  permanent : 500 ≤ code ∧ code ≤ 599
  sequence : code ≠ 503
  prompt : greyWorded t = false
  recipient : enhancedCode t ∉ senderCodes
  room : ¬ (subject (enhancedCode t) = 2 ∧ detail (enhancedCode t) = 2)
  wording : hasAny t mailboxHints = true ∨ subject (enhancedCode t) ≠ 4 ∧ subject (enhancedCode t) ≠ 7 ∧
    hasAny t senderHints = false ∧ (subject (enhancedCode t) = 1 ∨ subject (enhancedCode t) = 2 ∨ ¬ id.Names t)

def SaysFull (t : Str) : Prop :=
  subject (enhancedCode t) = 2 ∧ detail (enhancedCode t) = 2 ∨
    overQuotaRe.isMatch t = true ∧ sendingQuotaRe.isMatch t = false ∧
      (enhancedCode t = [] ∨ subject (enhancedCode t) = 2)

/-- A verdict is about the mailbox: what a reply was like that was read as one. -/
theorem verdict_about_mailbox (code : Int) (text : Str) (id : Identity) :
    (classifyAs code text id = .invalid → BlamesMailbox id code (toLower text)) ∧
    (classifyAs code text id = .valid →
      200 ≤ code ∧ code ≤ 299 ∨ 500 ≤ code ∧ code ≤ 599 ∧ SaysFull (toLower text)) ∧
    (400 ≤ code ∧ code ≤ 499 → ¬ (classifyAs code text id).IsVerdict) ∧
    (code < 200 ∨ 599 < code → classifyAs code text id = .unknown) := by
  rcases classifyAs_cases code text with ⟨c, settled, same⟩ | ⟨low, high, sequence, prompt, same⟩
  · rw [same id]
    refine ⟨fun is => absurd is settled.innocent, fun is => .inl (settled.accepted is), fun temporary => ?_,
      settled.outside⟩
    rintro (valid | invalid)
    · have := settled.accepted valid
      omega
    · exact settled.innocent invalid
  · rw [same id, classifyPermanent_eq]
    refine ⟨fun is => ?_, fun is => .inr ⟨low, high, permanentBy_valid is⟩, by omega, by omega⟩
    obtain ⟨recipient, room, wording⟩ := permanentBy_invalid is
    refine ⟨⟨low, high⟩, sequence, prompt, recipient, room, wording.imp_right ?_⟩
    rintro ⟨routed, policy, innocent⟩
    have quiet : ¬ _ := fun blamed => Bool.false_ne_true (innocent.symm.trans (blamesSender_iff.mpr blamed))
    obtain ⟨hints, names⟩ := not_or.mp quiet
    refine ⟨routed, policy, by simpa using hints, ?_⟩
    by_contra about
    obtain ⟨addressing, mailbox, named⟩ : _ ∧ _ ∧ _ := by simpa only [not_or, not_not] using about
    exact names ⟨named, addressing, mailbox⟩

lemma classifyPermanent_nobody (t : Str) (id : Identity) :
    classifyPermanent t id = classifyPermanent t ⟨[], [], []⟩ ∨ classifyPermanent t id = .policy ∧ id.Names t ∧
      hasAny t mailboxHints = false ∧ subject (enhancedCode t) ≠ 1 ∧ subject (enhancedCode t) ≠ 2 := by
  rw [classifyPermanent_eq, classifyPermanent_eq t ⟨[], [], []⟩, blamesSender_nobody]
  cases mailbox : hasAny t mailboxHints with
  | true => exact .inl (permanentBy_mailbox.trans permanentBy_mailbox.symm)
  | false =>
    by_cases named : id.Names t ∧ subject (enhancedCode t) ≠ 1 ∧ subject (enhancedCode t) ≠ 2
    · rw [blamesSender_iff.mpr (.inr named), permanentBy_sender]
      exact .inr ⟨rfl, named.1, rfl, named.2⟩
    · have same : blamesSender id t = hasAny t senderHints := by
        rw [Bool.eq_iff_iff, blamesSender_iff, or_iff_left named]
      rw [same]
      exact .inl rfl

/-- Our names only ever excuse: knowing them changes nothing or makes a refusal one of us. -/
theorem identity_excuses (code : Int) (text : Str) (id : Identity) :
    (classifyAs code text id = classify code text ∨ classifyAs code text id = .policy) ∧
    (classifyAs code text id ≠ classify code text → 500 ≤ code ∧ code ≤ 599 ∧ code ≠ 503 ∧ id.Names (toLower text) ∧
      greyWorded (toLower text) = false ∧ hasAny (toLower text) mailboxHints = false ∧
      subject (enhancedCode (toLower text)) ≠ 1 ∧ subject (enhancedCode (toLower text)) ≠ 2) := by
  unfold classify
  rcases classifyAs_cases code text with ⟨c, -, same⟩ | ⟨low, high, sequence, prompt, same⟩
  · rw [same id, same ⟨[], [], []⟩]
    exact ⟨.inl rfl, fun differs => absurd rfl differs⟩
  · rw [same id, same ⟨[], [], []⟩]
    rcases classifyPermanent_nobody (toLower text) id with alike | ⟨policy, named, hints, addressing, mailbox⟩
    · exact ⟨.inl alike, fun differs => absurd alike differs⟩
    · exact ⟨.inr policy, fun _ => ⟨low, high, sequence, named, prompt, hints, addressing, mailbox⟩⟩

/-- What keeps a full mailbox from being read as no mailbox: the reply is taken for
greylisting or for one about us, it has no enhanced code or one of routing or policy, or
one that says mailbox and either full or nothing that looks like a limit on sending. -/
def FullIsRead (id : Identity) (t : Str) : Prop :=
  greyWorded t = true ∨ enhancedCode t ∈ senderCodes ∨ hasAny t senderHints = true ∨
    id.Names t ∧ subject (enhancedCode t) ≠ 2 ∨
    enhancedCode t = [] ∨ subject (enhancedCode t) = 4 ∨ subject (enhancedCode t) = 7 ∨
    subject (enhancedCode t) = 2 ∧ (detail (enhancedCode t) = 2 ∨ sendingQuotaRe.isMatch t = false)

/-- A reply that a mailbox is over its quota, not about an address that does not exist. -/
@[mk_iff]
structure OverQuota (code : Int) (t : Str) : Prop where
  permanent : 500 ≤ code ∧ code ≤ 599
  sequence : code ≠ 503
  full : overQuotaRe.isMatch t = true
  hints : hasAny t mailboxHints = false
  addressing : subject (enhancedCode t) ≠ 1

instance (code : Int) (t : Str) : Decidable (OverQuota code t) := decidable_of_iff _ (overQuota_iff code t).symm

lemma OverQuota.read (reply : OverQuota code (toLower text)) (prompt : greyWorded (toLower text) = false) :
    classifyAs code text id = permanentBy (enhancedCode (toLower text)) false (blamesSender id (toLower text))
      (sendingQuotaRe.isMatch (toLower text)) true := by
  rw [classifyAs_permanent reply.permanent reply.sequence prompt, classifyPermanent_eq, reply.full, reply.hints]

/-- A full mailbox is not read as no mailbox exactly when one of these holds. -/
theorem full_not_invalid_iff (reply : OverQuota code (toLower text)) :
    classifyAs code text id ≠ .invalid ↔ FullIsRead id (toLower text) := by
  cases prompt : greyWorded (toLower text) with
  | true =>
    rcases classifyAs_cases code text with ⟨c, settled, same⟩ | ⟨-, -, -, other, -⟩
    · rw [same id]
      exact iff_of_true settled.innocent (.inl prompt)
    · rw [prompt] at other
      cases other
  | false =>
    rw [reply.read prompt, permanentBy_full reply.addressing, blamesSender_iff, FullIsRead, prompt]
    simp only [Bool.false_eq_true, false_or, or_assoc, reply.addressing, ne_eq, not_false_eq_true, true_and]

end

theorem mailbox_full_not_invalid :
    OverQuota 552 (toLower (lit "552 Mailbox full")) ∧
      classifyAs 552 (lit "552 Mailbox full") ⟨[], [], []⟩ ≠ .invalid := by
  have reply : OverQuota 552 (toLower (lit "552 Mailbox full")) := by decide +kernel
  have bare : enhancedCode (toLower (lit "552 Mailbox full")) = [] := by decide +kernel
  exact ⟨reply, (full_not_invalid_iff reply).mpr (.inr (.inr (.inr (.inr (.inl bare)))))⟩

/-- The code says mailbox and the text says full, but "present" has "sent" in it. -/
theorem mailbox_full_invalid :
    OverQuota 552 (toLower (lit "552 5.2.0 Mailbox full at present")) ∧
      classifyAs 552 (lit "552 5.2.0 Mailbox full at present") ⟨[], [], []⟩ = .invalid := by
  have reply : OverQuota 552 (toLower (lit "552 5.2.0 Mailbox full at present")) := by decide +kernel
  rw [reply.read (by decide +kernel)]
  exact ⟨reply, by decide +kernel⟩

end EmailVerifier.Prober
