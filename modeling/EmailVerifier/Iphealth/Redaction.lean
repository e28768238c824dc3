import EmailVerifier.Iphealth.Health
import EmailVerifier.Semantics.Alike
import EmailVerifier.Text.Utf8

/-! Where the key in the name of a zone can get to.

Two nodes that differ in one key make the same calls side by side, with lookups that answer
alike but for the zone in the texts of errors. If the code sees that the zone has a key,
everything it reports is the same; it does not see that behind capitals or a trailing dot.
-/

set_option autoImplicit false

namespace EmailVerifier.Iphealth
open Text Data Semantics

section
variable {old new front text : Str}

lemma replaceAll_skip (old new : Str) (skip : Nat) (text : Str) :
    replaceAll old new skip text = replaceAll old new 0 (text.drop skip) := by
  induction text generalizing skip with
  | nil => cases skip <;> rfl
  | cons b rest ih =>
    cases skip with
    | zero => rfl
    | succ skip => exact ih skip

lemma replaceAll_old (some : old ≠ []) (new text : Str) :
    replaceAll old new 0 (old ++ text) = new ++ replaceAll old new 0 text := by
  cases old with
  | nil => exact absurd rfl some
  | cons b more =>
    have here : (b :: more).isPrefixOf (b :: (more ++ text)) = true :=
      List.isPrefixOf_iff_prefix.mpr ⟨text, rfl⟩
    rw [List.cons_append, replaceAll, if_pos here, replaceAll_skip]
    simp

/-- What stands before the first occurrence stays. -/
lemma replaceAll_front (new : Str) (first : ∀ i < front.length, ¬ old <+: (front ++ text).drop i) :
    replaceAll old new 0 (front ++ text) = front ++ replaceAll old new 0 text := by
  induction front with
  | nil => rfl
  | cons b front ih =>
    have here : ¬ old.isPrefixOf (b :: (front ++ text)) = true :=
      fun occurs => first 0 (Nat.succ_pos _) (List.isPrefixOf_iff_prefix.mp occurs)
    rw [List.cons_append, replaceAll, if_neg here, ih fun i before => first (i + 1) (Nat.succ_lt_succ before)]
    rfl

lemma replaceAll_self (some : old ≠ []) (text : Str) : replaceAll old old 0 text = text := by
  have all (skip : Nat) : replaceAll old old skip text = text.drop skip := by
    induction text generalizing skip with
    | nil => cases skip <;> rfl
    | cons b rest ih =>
      cases skip with
      | succ skip => exact ih skip
      | zero =>
        rw [replaceAll, ih, ih]
        split
        · rename_i occurs
          obtain ⟨tail, same⟩ := List.isPrefixOf_iff_prefix.mp occurs
          cases old with
          | nil => exact absurd rfl some
          | cons c more =>
            obtain ⟨rfl, rfl⟩ := List.cons_eq_cons.mp same
            simp
        · rfl
  exact all 0

end

/-- The same text but for the zone, which stands in one where the other zone stands in the
other, and nowhere else. -/
inductive SameBut (zone zone' : Str) : Str → Str → Prop where
  | plain {text : Str} : ¬ zone <:+: text → ¬ zone' <:+: text → SameBut zone zone' text text
  | named {front text text' : Str} :
      (∀ i < front.length, ¬ zone <+: (front ++ (zone ++ text)).drop i) →
      (∀ i < front.length, ¬ zone' <+: (front ++ (zone' ++ text')).drop i) →
      SameBut zone zone' text text' → SameBut zone zone' (front ++ (zone ++ text)) (front ++ (zone' ++ text'))

lemma replaceAll_plain {old text : Str} (new : Str) (missing : ¬ old <:+: text) : replaceAll old new 0 text = text := by
  have nowhere : ∀ i < text.length, ¬ old <+: (text ++ []).drop i := fun i _ occurs =>
    missing (List.append_nil text ▸ occurs.isInfix.trans (List.drop_suffix i (text ++ [])).isInfix)
  simpa [replaceAll] using replaceAll_front new nowhere

lemma SameBut.replaced {zone zone' text text' : Str} (same : SameBut zone zone' text text') (some : zone ≠ [])
    (some' : zone' ≠ []) (new : Str) : replaceAll zone new 0 text = replaceAll zone' new 0 text' := by
  induction same with
  | plain missing missing' => rw [replaceAll_plain new missing, replaceAll_plain new missing']
  | named first first' _ ih =>
    rw [replaceAll_front new first, replaceAll_front new first', replaceAll_old some, replaceAll_old some', ih]

lemma redactError_eq {zone : Str} (some : zone ≠ []) (err : Str) :
    redactError err zone = replaceAll zone (RedactZone zone) 0 err := by
  unfold redactError
  split
  · rename_i same
    rw [same, replaceAll_self some]
  · rfl

/-! ## Zones with a key -/

def IsLabel (label : Str) : Prop := label ≠ [] ∧ 46 ∉ label

/-- A zone as a DNS name: in lower case, without the dot that may end it. -/
def dnsName (zone : Str) : Str := (if hasSuffix zone (lit ".") then zone.dropLast else zone).map lowerByte

/-- What follows the key in a string that denotes, as a DNS name, a keyed zone of one of the families. -/
def KeyedEnding (rest : Str) : Prop :=
  ∃ family ∈ keyedZoneFamilies, ∃ list, IsLabel list ∧ dnsName rest = 46 :: (list ++ family.1)

/-- The string ends as the table of families has it. -/
def AsListed (rest : Str) : Prop := ∃ family ∈ keyedZoneFamilies, hasSuffix rest family.1 = true

section
variable {rest key : Str}

lemma lowerByte_dot (b : UInt8) : lowerByte b = 46 ↔ b = 46 := by
  unfold lowerByte
  split
  · rename_i capital
    simp only [UInt8.le_iff_toNat_le, ← UInt8.toNat_inj, UInt8.toNat_add, UInt8.reduceToNat] at capital ⊢
    omega
  · rfl

lemma count_dnsName (zone : Str) : (dnsName zone).count 46 ≤ zone.count 46 := by
  have lowered (s : Str) : (s.map lowerByte).count 46 = s.count 46 := by
    rw [List.count, List.countP_map]
    exact List.countP_congr fun b _ => by simp [lowerByte_dot]
  unfold dnsName
  rw [lowered]
  split
  · exact (List.dropLast_sublist zone).count_le 46
  · exact le_rfl

lemma split_length (sep : UInt8) (s : Str) : (split sep s).length = s.count sep + 1 := by
  induction s with
  | nil => rfl
  | cons b rest ih =>
    obtain ⟨first, more, here, all⟩ := split_cons sep b rest
    rw [all, List.count_cons]
    rw [here] at ih
    split
    · rename_i same
      simp [same, ← ih]
    · rename_i other
      simpa [other] using ih

lemma join_split (s : Str) : join "." (split 46 s) = s := by
  change List.intercalate [46] (split 46 s) = s
  induction s with
  | nil => rfl
  | cons b rest ih =>
    obtain ⟨first, more, here, all⟩ := split_cons 46 b rest
    rw [here] at ih
    rw [all]
    split
    · rename_i dot
      rw [List.intercalate_cons_cons, ih, dot]
      rfl
    · cases more with
      | nil => simpa using ih
      | cons second more =>
        rw [List.intercalate_cons_cons] at ih ⊢
        rw [List.cons_append, List.cons_append, ih]

lemma KeyedEnding.dot (keyed : KeyedEnding rest) : ∃ more, rest = 46 :: more := by
  obtain ⟨family, -, list, -, same⟩ := keyed
  cases rest with
  | nil => exact absurd same (by simp [dnsName, hasSuffix])
  | cons b more =>
    refine ⟨more, ?_⟩
    have head : lowerByte b = 46 := by
      unfold dnsName at same
      split at same
      · cases more with
        | nil => simp at same
        | cons c more => simpa using (List.cons.inj same).1
      · exact (List.cons.inj same).1
    rw [(lowerByte_dot b).mp head]

lemma KeyedEnding.labels (keyed : KeyedEnding rest) : 4 ≤ rest.count 46 := by
  obtain ⟨family, known, list, -, same⟩ := keyed
  have dots : ∀ family ∈ keyedZoneFamilies, family.1.count 46 = 3 := by decide
  have counted := count_dnsName rest
  rw [same, List.count_cons_self, List.count_append, dots family known] at counted
  omega

lemma KeyedEnding.long (keyed : KeyedEnding rest) : ∀ family ∈ keyedZoneFamilies, family.1.length ≤ rest.length := by
  obtain ⟨family, known, list, ⟨some, -⟩, same⟩ := keyed
  have sizes : ∀ family ∈ keyedZoneFamilies, 16 ≤ family.1.length ∧ family.1.length ≤ 17 := by decide
  have shorter : (dnsName rest).length ≤ rest.length := by
    unfold dnsName
    split <;> simp
  rw [same, List.length_cons, List.length_append] at shorter
  have label := List.length_pos_iff.mpr some
  intro other listed
  have := sizes family known
  have := sizes other listed
  omega

lemma hasSuffix_keyed (keyed : KeyedEnding rest) (key : Str) {family : Str × Nat} (known : family ∈ keyedZoneFamilies) :
    hasSuffix (key ++ rest) family.1 = hasSuffix rest family.1 := by
  unfold hasSuffix
  rw [Bool.eq_iff_iff, List.isSuffixOf_iff_suffix, List.isSuffixOf_iff_suffix]
  constructor
  · intro ends
    exact List.suffix_of_suffix_length_le ends (List.suffix_append key rest) (keyed.long family known)
  · exact fun ends => ends.trans (List.suffix_append key rest)

lemma RedactZone_keyed (label : IsLabel key) (keyed : KeyedEnding rest) (listed : AsListed rest) :
    RedactZone (key ++ rest) = lit "<key>" ++ rest := by
  obtain ⟨more, rfl⟩ := keyed.dot
  obtain ⟨family, known, ends⟩ := listed
  have found : (keyedZoneFamilies.find? fun family => hasSuffix (key ++ 46 :: more) family.1).isSome = true := by
    rw [List.find?_isSome]
    exact ⟨family, known, by rw [hasSuffix_keyed keyed key known]; exact ends⟩
  obtain ⟨family, found⟩ := Option.isSome_iff_exists.mp found
  have four : ∀ family ∈ keyedZoneFamilies, family.2 = 4 := by decide
  have many : ¬ (split 46 (key ++ 46 :: more)).length ≤ family.2 := by
    rw [four family (List.mem_of_find?_eq_some found), split_length, List.count_append]
    have := keyed.labels
    omega
  unfold RedactZone
  rw [found]
  dsimp only
  rw [if_neg many, split_append label.2, List.tail_cons, join_split]
  rfl

lemma RedactZone_missed (keyed : KeyedEnding rest) (unlisted : ¬ AsListed rest) (key : Str) :
    RedactZone (key ++ rest) = key ++ rest := by
  have missing : (keyedZoneFamilies.find? fun family => hasSuffix (key ++ rest) family.1) = none := by
    rw [List.find?_eq_none]
    intro family known ends
    rw [hasSuffix_keyed keyed key known] at ends
    exact unlisted ⟨family, known, ends⟩
  unfold RedactZone
  rw [missing]

end

/-! ## Two nodes side by side -/

def testPoints : List Str := [lit "2.0.0.127", lit "1.0.0.127"] ++ unlistablePoints.map Prod.fst

/-- What the lookup and the store answer, by the number of operations before. -/
structure Net where
  lookup : Nat → Str → Reply
  set : Nat → Except Str Unit := fun _ => .ok ()

/-- Texts matter at the points of the self-test: what a failed query of `Check` says is dropped. -/
inductive SameReply (point zone zone' : Str) : Reply → Reply → Prop where
  | answered {addrs : List Addr} : SameReply point zone zone' (.ok addrs) (.ok addrs)
  | failed {text text' : Str} {notFound : Bool} : (point ∈ testPoints → SameBut zone zone' text text') →
      SameReply point zone zone' (.error ⟨text, notFound⟩) (.error ⟨text', notFound⟩)

/-- The lookups answer alike whichever of the two keys the zone has. -/
def Net.Blind (net : Net) (rest key key' : Str) : Prop :=
  ∀ n point, SameReply point (key ++ rest) (key' ++ rest)
    (net.lookup n (queryName point (key ++ rest))) (net.lookup n (queryName point (key' ++ rest)))

def serving (net : Net) : Player calls (Shared × Nat) := fun s op => match op with
  | .lookup name => (net.lookup s.2 name, s.1, s.2 + 1)
  | .configured => (s.1.zones, s.1, s.2 + 1)
  | .zones => (s.1.zones, s.1, s.2 + 1)
  | .trusted => (s.1.trusted, s.1, s.2 + 1)
  | .keep zones => ((), { s.1 with zones, trusted := true }, s.2 + 1)
  | .judge burned reason => ((), { s.1 with burned, reason }, s.2 + 1)
  | .clear => ((), { s.1 with burned := false, reason := [] }, s.2 + 1)
  | .ipListed _ _ _ => ((), s.1, s.2 + 1)
  | .set _ _ => (net.set s.2, s.1, s.2 + 1)

inductive Job where
  | selfTest
  | check
  | resume

def Job.run (o : Options) : Job → Act Outcome
  | .selfTest => tests o
  | .check => checks o
  | .resume => resumes o

def doAll (o : Options) : List Job → Act (List Outcome)
  | [] => return []
  | job :: more => do
    let outcome ← job.run o
    return outcome :: (← doAll o more)

/-- What is told of a call: of a self-test the texts of its reasons. -/
inductive Told where
  | selfTest (dropped caveats : List Str) (err : Option Str)
  | check (result : Except Str Report)
  | resume

def Outcome.told : Outcome → Told
  | .tested (result, err) =>
    .selfTest (result.dropped.map ZoneFinding.reason) (result.caveats.map ZoneFinding.reason) err
  | .checked result => .check result
  | .resumed => .resume

/-- The labels of the metric, the reasons the node stands down for and the values that are stored. -/
def shown : Op → List Op
  | .ipListed ip list listed => [.ipListed ip list listed]
  | .judge burned reason => [.judge burned reason]
  | .set key val => [.set key val]
  | _ => []

/-- All that is seen of a new `Health` while it makes the calls. -/
def seen (o : Options) (net : Net) (jobs : List Job) : List Told × List Op :=
  let run := (doAll o jobs).play ((serving net).noting shown) (({ zones := o.watched }, 0), [])
  (run.2.1.map Outcome.told, run.2.2.2)

def Op.plain : Op → Bool
  | .trusted | .judge _ _ | .clear | .ipListed _ _ _ | .set _ _ => true
  | _ => false

section
variable (zone zone' : Str)

def Twin (z z' : Str) : Prop := z = z' ∨ z = zone ∧ z' = zone'

/-- What the two nodes ask at the same time. -/
inductive Ask where
  | lookup (point z z' : Str) (twin : Twin zone zone' z z')
  | configured
  | zones
  | keep (zones zones' : List Str) (twins : List.Forall₂ (Twin zone zone') zones zones')
  | same (op : Op) (plain : op.plain = true)

/-- The same answer, up to a text that no one reads. -/
def Agree (point : Str) : Except Str Bool → Except Str Bool → Prop
  | .ok listed, .ok listed' => listed = listed'
  | .error err, .error err' => point ∈ testPoints → err = err'
  | _, _ => False

def sideBySide : Pairing calls where
  Ask := Ask zone zone'
  left
    | .lookup point z _ _ => .lookup (queryName point z)
    | .configured => .configured
    | .zones => .zones
    | .keep zones _ _ => .keep zones
    | .same op _ => op
  right
    | .lookup point _ z' _ => .lookup (queryName point z')
    | .configured => .configured
    | .zones => .zones
    | .keep _ zones' _ => .keep zones'
    | .same op _ => op
  told
    | .lookup point z z' _, reply, reply' => Agree point (readReply z reply) (readReply z' reply')
    | .configured, zones, zones' => List.Forall₂ (Twin zone zone') zones zones'
    | .zones, zones, zones' => List.Forall₂ (Twin zone zone') zones zones'
    | .keep _ _ _, _, _ => True
    | .same _ _, answer, answer' => answer = answer'

structure Near (s s' : (Shared × Nat) × List Op) : Prop where
  zones : List.Forall₂ (Twin zone zone') s.1.1.zones s'.1.1.zones
  trusted : s.1.1.trusted = s'.1.1.trusted
  time : s.1.2 = s'.1.2
  shown : s.2 = s'.2

/-- The self-tests so far, in step: the same reasons, and zones that are twins. -/
structure InStep (found found' : SelfTestResult × List Str) : Prop where
  dropped : found.1.dropped.map ZoneFinding.reason = found'.1.dropped.map ZoneFinding.reason
  caveats : found.1.caveats.map ZoneFinding.reason = found'.1.caveats.map ZoneFinding.reason
  kept : List.Forall₂ (Twin zone zone') found.2 found'.2

end

abbrev ToldAlike (out out' : Outcome) : Prop := out.told = out'.told

section
variable {zone zone' point z z' : Str} {zones zones' : List Str} {A : Type} {R : A → A → Prop}

lemma Agree.refl (point : Str) (answer : Except Str Bool) : Agree point answer answer := by
  cases answer with
  | ok _ => rfl
  | error _ => exact fun _ => rfl

lemma Agree.eq {answer answer' : Except Str Bool} (agree : Agree point answer answer') (test : point ∈ testPoints) :
    answer = answer' := by
  cases answer with
  | ok _ =>
    cases answer' with
    | ok _ => exact congrArg _ agree
    | error _ => cases agree
  | error _ =>
    cases answer' with
    | ok _ => cases agree
    | error _ => exact congrArg _ (agree test)

lemma SameReply.agree {reply reply' : Reply} (same : SameReply point z z' reply reply') (some : z ≠ []) (some' : z' ≠ [])
    (redacted : RedactZone z = RedactZone z') : Agree point (readReply z reply) (readReply z' reply') := by
  cases same with
  | answered => rfl
  | @failed text text' notFound texts =>
    cases notFound with
    | true => rfl
    | false =>
      intro test
      rw [redactError_eq some, redactError_eq some', redacted]
      exact (texts test).replaced some some' _

lemma serving_upheld {net : Net} (agrees : ∀ n point, Agree point (readReply zone (net.lookup n (queryName point zone)))
      (readReply zone' (net.lookup n (queryName point zone')))) :
    (sideBySide zone zone').Upheld ((serving net).noting shown) ((serving net).noting shown) (Near zone zone') where
  told q s s' near := by
    cases q with
    | lookup point z z' twin =>
      change Agree point (readReply z (net.lookup s.1.2 _)) (readReply z' (net.lookup s'.1.2 _))
      rw [near.time]
      rcases twin with rfl | ⟨rfl, rfl⟩
      · exact .refl point _
      · exact agrees _ point
    | configured => exact near.zones
    | zones => exact near.zones
    | keep => trivial
    | same op plain =>
      cases op with
      | trusted => exact near.trusted
      | set _ _ => exact congrArg net.set near.time
      | judge | clear | ipListed => rfl
      | _ => cases plain
  near q s s' near := by
    obtain ⟨zones, trusted, time, notes⟩ := near
    cases q with
    | keep kept kept' twins => exact ⟨twins, rfl, congrArg (· + 1) time, congrArg (· ++ []) notes⟩
    | same op plain =>
      cases op with
      | lookup | configured | zones | keep => cases plain
      | _ => exact ⟨zones, trusted, congrArg (· + 1) time, congrArg (· ++ _) notes⟩
    | _ => exact ⟨zones, trusted, congrArg (· + 1) time, congrArg (· ++ []) notes⟩

lemma query_agree (point : Str) (twin : Twin zone zone' z z') :
    (query point z).Twins (sideBySide zone zone') (Agree point) (query point z') :=
  .perform (P := sideBySide zone zone') (.lookup point z z' twin) fun _ _ agree => .done agree

lemma query_same (test : point ∈ testPoints) (twin : Twin zone zone' z z') {f f' : Except Str Bool → Act A}
    (more : ∀ answer, (f answer).Twins (sideBySide zone zone') R (f' answer)) :
    (query point z >>= f).Twins (sideBySide zone zone') R (query point z' >>= f') := by
  refine (query_agree point twin).bind fun answer answer' agree => ?_
  rw [agree.eq test]
  exact more answer'

lemma plain_same {op : Op} (plain : op.plain = true) {f f' : op.Answer → Act A}
    (more : ∀ answer, (f answer).Twins (sideBySide zone zone') R (f' answer)) :
    (Prog.ask (I := calls) op >>= f).Twins (sideBySide zone zone') R (Prog.ask (I := calls) op >>= f') :=
  .perform (P := sideBySide zone zone') (.same op plain) fun answer _ same => same ▸ more answer

lemma secondOpinion_same (twin : Twin zone zone' z z') (reported : Str) {points : List (Str × Str)}
    (tests : ∀ at_ ∈ points, at_.1 ∈ testPoints) (failed : Option Str) :
    (secondOpinion z reported points failed).Twins (sideBySide zone zone') Eq (secondOpinion z' reported points failed) := by
  induction points generalizing failed with
  | nil => cases failed <;> exact .done rfl
  | cons at_ more ih =>
    obtain ⟨test, tests⟩ := List.forall_mem_cons.mp tests
    refine query_same test twin fun answer => ?_
    match answer with
    | .error err => exact ih tests (some err)
    | .ok true => exact ih tests failed
    | .ok false => exact .done rfl

lemma persist_same (o : Options) (burned : Bool) (reason : Str) :
    (persist o burned reason).Twins (sideBySide zone zone') Eq (persist o burned reason) := by
  unfold persist
  split
  · exact plain_same rfl fun _ => .done rfl
  · exact .done rfl

lemma resumes_told (o : Options) : (resumes o).Twins (sideBySide zone zone') ToldAlike (resumes o) := by
  refine Prog.Twins.bind (R := Eq) ?_ fun _ _ _ => .done rfl
  exact plain_same rfl fun _ => persist_same o _ _

variable (redacted : RedactZone zone = RedactZone zone')
include redacted

lemma Twin.redacts (twin : Twin zone zone' z z') : RedactZone z = RedactZone z' := by
  rcases twin with rfl | ⟨rfl, rfl⟩
  · rfl
  · exact redacted

lemma selfTestZone_same (twin : Twin zone zone' z z') :
    (selfTestZone z).Twins (sideBySide zone zone') Eq (selfTestZone z') := by
  unfold selfTestZone
  rw [twin.redacts redacted]
  refine query_same (by simp [testPoints]) twin fun answer => ?_
  match answer with
  | .error err => exact .done rfl
  | .ok false => exact .done rfl
  | .ok true =>
    refine query_same (by simp [testPoints]) twin fun answer => ?_
    match answer with
    | .error err => exact .done rfl
    | .ok false => exact .done rfl
    | .ok true => exact secondOpinion_same twin _ (fun _ member => by simp [testPoints, List.mem_map_of_mem member]) none

lemma testZones_inStep (twins : List.Forall₂ (Twin zone zone') zones zones') {found found' : SelfTestResult × List Str}
    (inStep : InStep zone zone' found found') :
    (testZones zones found).Twins (sideBySide zone zone') (InStep zone zone') (testZones zones' found') := by
  induction twins generalizing found found' with
  | nil => exact .done inStep
  | cons twin _ ih =>
    obtain ⟨dropped, caveats, kept⟩ := inStep
    have longer := List.rel_append kept (List.Forall₂.cons twin .nil)
    refine (selfTestZone_same redacted twin).bind fun answer answer' same => ?_
    subst same
    match answer with
    | .error err => exact ih ⟨by simp [dropped], caveats, kept⟩
    | .ok none => exact ih ⟨dropped, caveats, longer⟩
    | .ok (some caveat) => exact ih ⟨dropped, by simp [caveats], longer⟩

lemma tests_told (o : Options) : (tests o).Twins (sideBySide zone zone') ToldAlike (tests o) := by
  unfold tests SelfTest
  by_cases off : ¬ o.Enabled
  · simp only [if_pos off]
    exact .done rfl
  simp only [if_neg off]
  refine .perform (P := sideBySide zone zone') .configured fun zones zones' twins => ?_
  refine Prog.Twins.bind (R := fun out out' => (Outcome.tested out).told = (Outcome.tested out').told) ?_
    fun _ _ same => .done same
  refine (testZones_inStep redacted twins ⟨rfl, rfl, .nil⟩).bind fun found found' inStep => ?_
  obtain ⟨result, kept⟩ := found
  obtain ⟨result', kept'⟩ := found'
  obtain ⟨dropped, caveats, twins⟩ := inStep
  dsimp only at dropped caveats twins ⊢
  cases twins with
  | nil =>
    refine .done ?_
    simp only [Outcome.told, dropped, caveats, ← List.head?_map]
  | cons twin twins =>
    refine .perform (P := sideBySide zone zone') (.keep _ _ (.cons twin twins)) fun _ _ _ => .done ?_
    simp only [Outcome.told, dropped, caveats]

lemma askZones_same (o : Options) (twins : List.Forall₂ (Twin zone zone') zones zones') (found : Table Str Bool × List Str) :
    (askZones o zones found).Twins (sideBySide zone zone') Eq (askZones o zones' found) := by
  induction twins generalizing found with
  | nil => exact .done rfl
  | cons twin _ ih =>
    refine (query_agree (reverse o.ip) twin).bind fun answer answer' agree => ?_
    match answer, answer', agree with
    | .error _, .error _, _ => exact ih found
    | .ok listed, .ok _, rfl =>
      simp only [twin.redacts redacted]
      split
      · exact plain_same rfl fun _ => ih _
      · exact ih _

lemma checks_told (o : Options) : (checks o).Twins (sideBySide zone zone') ToldAlike (checks o) := by
  refine Prog.Twins.bind (R := Eq) ?_ fun _ _ same => .done (congrArg Told.check same)
  unfold Check
  split
  · exact .done rfl
  refine plain_same rfl fun trusted => ?_
  split
  · exact .done rfl
  refine .perform (P := sideBySide zone zone') .zones fun zones zones' twins => ?_
  refine (askZones_same redacted o twins (∅, [])).bind fun found _ same => ?_
  subst same
  refine plain_same rfl fun _ => ?_
  exact (persist_same o _ _).bind fun _ _ _ => .done rfl

lemma doAll_told (o : Options) (jobs : List Job) : (doAll o jobs).Twins (sideBySide zone zone')
    (fun outs outs' => outs.map Outcome.told = outs'.map Outcome.told) (doAll o jobs) := by
  induction jobs with
  | nil => exact .done rfl
  | cons job more ih =>
    refine Prog.Twins.bind (R := ToldAlike) ?_ fun _ _ same => ih.bind fun _ _ others => .done (by simp [same, others])
    cases job with
    | selfTest => exact tests_told redacted o
    | check => exact checks_told redacted o
    | resume => exact resumes_told o

end

section
variable {rest key key' : Str}

lemma askZones_zones (o : Options) (configured zones : List Str) (found : Table Str Bool × List Str) :
    askZones { o with zones := configured } zones found = askZones o zones found := by
  induction zones generalizing found with
  | nil => rfl
  | cons zone more ih => simp only [askZones, ih]

lemma doAll_zones (o : Options) (zones : List Str) (jobs : List Job) : doAll { o with zones } jobs = doAll o jobs := by
  have same (job : Job) : job.run { o with zones } = job.run o := by
    cases job with
    | check =>
      simp only [Job.run, checks, Check, askZones_zones]
      rfl
    | _ => rfl
  induction jobs with
  | nil => rfl
  | cons job more ih => rw [doAll, doAll, ih, same]

lemma seen_listed {net : Net} {front back : List Str} (label : IsLabel key) (label' : IsLabel key')
    (keyed : KeyedEnding rest) (listed : AsListed rest) (blind : net.Blind rest key key') (o : Options) (jobs : List Job) :
    seen { o with zones := front ++ (key ++ rest) :: back } net jobs =
      seen { o with zones := front ++ (key' ++ rest) :: back } net jobs := by
  have redacted : RedactZone (key ++ rest) = RedactZone (key' ++ rest) := by
    rw [RedactZone_keyed label keyed listed, RedactZone_keyed label' keyed listed]
  have agrees := fun n point => (blind n point).agree (by simp [label.1]) (by simp [label'.1]) redacted
  have watched (key : Str) : ({ o with zones := front ++ (key ++ rest) :: back } : Options).watched =
      front ++ (key ++ rest) :: back := by simp [Options.watched]
  have same (zones : List Str) : List.Forall₂ (Twin (key ++ rest) (key' ++ rest)) zones zones :=
    List.forall₂_same.mpr fun _ _ => .inl rfl
  have start : Near (key ++ rest) (key' ++ rest) (({ zones := front ++ (key ++ rest) :: back }, 0), [])
      (({ zones := front ++ (key' ++ rest) :: back }, 0), []) :=
    ⟨List.rel_append (same front) (.cons (.inr ⟨rfl, rfl⟩) (same back)), rfl, rfl, rfl⟩
  have told := (doAll_told redacted o jobs).play (serving_upheld agrees) start
  simp only [seen, doAll_zones, watched]
  exact Prod.ext told.1 told.2.shown

end

/-- A lookup that finds nothing listed. -/
def silent : Net := { lookup := fun _ _ => .ok [] }

def stub (zone : Str) : Str := zone ++ lit " did not list its own test point; the resolver cannot query it"

lemma silent_dropped (zone : Str) : seen { ip := lit "1", zones := [zone] } silent [.selfTest] =
    ([.selfTest [stub (RedactZone zone)] []
      (some (lit "iphealth: no zone passed its self-test: " ++ stub (RedactZone zone)))], []) := rfl

/-- For a keyed zone in any letter case, with or without the dot at the end: what is seen never
depends on the key exactly if the zone ends as the table of families has it. -/
theorem key_unseen_iff {rest : Str} (keyed : KeyedEnding rest) :
    (∀ (o : Options) (front back : List Str) (key key' : Str) (net : Net) (jobs : List Job),
      IsLabel key → IsLabel key' → net.Blind rest key key' →
      seen { o with zones := front ++ (key ++ rest) :: back } net jobs =
        seen { o with zones := front ++ (key' ++ rest) :: back } net jobs) ↔ AsListed rest := by
  constructor
  · intro unseen
    by_contra unlisted
    have same := unseen { ip := lit "1" } [] [] (lit "a") (lit "b") silent [.selfTest] ⟨by decide, by decide⟩
      ⟨by decide, by decide⟩ fun _ _ => .answered
    have reasons := (silent_dropped _).symm.trans (same.trans (silent_dropped _))
    rw [RedactZone_missed keyed unlisted, RedactZone_missed keyed unlisted] at reasons
    have keys : lit "a" = lit "b" := by simpa [stub] using reasons
    exact absurd keys (by decide)
  · intro listed o front back key key' net jobs label label' blind
    exact seen_listed label label' keyed listed blind o jobs

/-- Every lookup fails and names the query. -/
def complaining : Net := { lookup := fun _ name => .error ⟨lit "lookup " ++ name, false⟩ }

lemma complaining_blind : complaining.Blind (lit ".combined.mail.abusix.zone") (lit "k1") (lit "key2") := by
  intro n point
  refine .failed fun test => ?_
  have texts (zone : Str) : lit "lookup " ++ queryName point zone = lit "lookup " ++ point ++ lit "." ++ (zone ++ []) := by
    simp [queryName]
  rw [texts, texts]
  have firsts : ∀ point ∈ testPoints, ∀ zone ∈ [lit "k1.combined.mail.abusix.zone", lit "key2.combined.mail.abusix.zone"],
      ∀ i < (lit "lookup " ++ point ++ lit ".").length, ¬ zone <+: (lit "lookup " ++ point ++ lit "." ++ (zone ++ [])).drop i := by
    decide +kernel
  exact .named (firsts point test _ (by decide)) (firsts point test _ (by decide)) (.plain (by decide) (by decide))

theorem combined_unseen :
    seen { ip := lit "192.0.2.7", zones := [lit "k1" ++ lit ".combined.mail.abusix.zone"] } complaining [.selfTest, .check] =
      seen { ip := lit "192.0.2.7", zones := [lit "key2" ++ lit ".combined.mail.abusix.zone"] } complaining [.selfTest, .check] :=
  (key_unseen_iff ⟨_, List.mem_cons_self, lit "combined", ⟨by decide, by decide⟩, by decide⟩).mpr
    ⟨_, List.mem_cons_self, by decide⟩ { ip := lit "192.0.2.7" } [] [] _ _ complaining _ ⟨by decide, by decide⟩
    ⟨by decide, by decide⟩ complaining_blind

/-- The address is listed, and so is the test point; the clean point is not. -/
def listedOn : Net := { lookup := fun n _ => .ok (if n = 2 then [] else [.v4 (ip4 127 0 0 2)]) }

lemma listedOn_stored (zone : Str) :
    (seen { ip := lit "192.0.2.7", zones := [zone], store := true } listedOn [.selfTest, .check]).2 =
      [.judge true (lit "listed on " ++ join ", " [RedactZone zone]),
        .set (lit "ip:health:192.0.2.7") (lit "burned:" ++ (lit "listed on " ++ join ", " [RedactZone zone]))] := rfl

/-- A dot at the end, and the key is in the reason the node stands down for and in the store. -/
theorem dotted_key_seen :
    let dotted := fun key => seen { ip := lit "192.0.2.7", zones := [key ++ lit ".combined.mail.abusix.zone."], store := true }
      listedOn [.selfTest, .check]
    KeyedEnding (lit ".combined.mail.abusix.zone.") ∧
    listedOn.Blind (lit ".combined.mail.abusix.zone.") (lit "k1") (lit "k2") ∧
    (dotted (lit "k1")).2 = [.judge true (lit "listed on k1.combined.mail.abusix.zone."),
      .set (lit "ip:health:192.0.2.7") (lit "burned:listed on k1.combined.mail.abusix.zone.")] ∧
    dotted (lit "k1") ≠ dotted (lit "k2") := by
  have keyed : KeyedEnding (lit ".combined.mail.abusix.zone.") :=
    ⟨_, List.mem_cons_self, lit "combined", ⟨by decide, by decide⟩, by decide⟩
  have missed := RedactZone_missed keyed fun ⟨family, known, ends⟩ =>
    absurd ends ((by decide : ∀ family ∈ keyedZoneFamilies, ¬ hasSuffix (lit ".combined.mail.abusix.zone.") family.1 = true)
      family known)
  refine ⟨keyed, fun _ _ => .answered, ?_, fun same => ?_⟩
  · rw [listedOn_stored, missed]
    decide +kernel
  · have stored := (listedOn_stored _).symm.trans ((congrArg Prod.snd same).trans (listedOn_stored _))
    rw [missed, missed] at stored
    simp [join] at stored
    exact absurd stored (by decide)

end EmailVerifier.Iphealth
