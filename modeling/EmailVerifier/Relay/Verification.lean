import EmailVerifier.Relay.Canonical
import EmailVerifier.Relay.Rendering
import EmailVerifier.Semantics.Player

/-! What was signed is what a verifier hashes.

The headers and the body go from `Build` to `Sign` and, rendered and stuffed, to `Send`.
A verifier on the other side parses what arrives and finds the two texts that `Sign`
hashed.
-/

set_option autoImplicit false

namespace EmailVerifier.Relay
open Text Semantics

section
variable [Unicode] [Base64]

def signedText (headers : List Header) (tag : Str) : Str :=
  ((signedHeaders.filterMap (present headers)).flatMap fun h => canonicalizeHeader h.name h.value) ++
    canonicalizeHeaderNoCRLF (lit "DKIM-Signature") tag

def hashed (tr : Trace seals) : List Str :=
  tr.filterMap fun e =>
    match e with
    | ⟨.sum256 data, _⟩ => some data
    | _ => none

omit [Base64] in
lemma filterMap_present (headers : List Header) (names : List Str) :
    (names.filterMap fun name => (present headers name).map (name, ·)).map Prod.snd = names.filterMap (present headers) := by
  induction names with
  | nil => rfl
  | cons name names ih =>
    cases found : present headers name <;> simp [found, ih]

omit [Base64] in
lemma names_present {headers : List Header} {names : List Str} (all : ∀ name ∈ names, (present headers name).isSome) :
    (names.filterMap fun name => (present headers name).map (name, ·)).map Prod.fst = names := by
  induction names with
  | nil => rfl
  | cons name names ih =>
    obtain ⟨here, others⟩ := List.forall_mem_cons.mp all
    obtain ⟨h, found⟩ := Option.isSome_iff_exists.mp here
    simp [found, ih others]

lemma Sign_runs {S : Type} {W : World seals S} {start t : S} {tr : Trace seals} {s : Signer} {headers : List Header}
    {body line : Str} (all : ∀ name ∈ signedHeaders, (present headers name).isSome)
    (run : Runs W (s.Sign headers body) start tr (.done (.ok line)) t) :
    ∃ unix bodyHash sig, hashed tr = [canonicalizeBody body, signedText headers (s.tag unix signedHeaders bodyHash)] ∧
      line = lit "DKIM-Signature: " ++ s.tag unix signedHeaders bodyHash ++ Base64.encode sig ++ crlf := by
  have names := names_present all
  have canon := congrArg (List.flatMap fun h : Header => canonicalizeHeader h.name h.value)
    (filterMap_present headers signedHeaders)
  rw [List.flatMap_map] at canon
  cases run with
  | @next _ _ bodyHash _ _ _ _ _ _ run =>
  cases run with
  | @next _ _ unix _ _ _ _ _ _ run =>
  cases run with
  | @next _ _ digest _ _ _ _ _ _ run =>
  cases run with
  | @next _ _ signed _ _ _ _ _ _ run =>
  cases signed with
  | error err => cases run
  | ok sig =>
    cases run
    refine ⟨unix, bodyHash, sig, ?_, ?_⟩
    · simp only [hashed, List.filterMap_cons, List.filterMap_nil, signedText, names]
      rw [← canon]
    · rw [names]

end

def TagText (s : Str) : Prop := ∀ b ∈ s, 33 ≤ b ∧ b ≤ 126 ∧ b ≠ 59

instance (s : Str) : Decidable (TagText s) := List.decidableBAll _ s

def Signer.Proper (s : Signer) : Prop := TagText s.domain ∧ TagText s.selector

instance (s : Signer) : Decidable s.Proper := inferInstanceAs (Decidable (TagText s.domain ∧ TagText s.selector))

def Signer.tags [Base64] (s : Signer) (unix : Int) (bodyHash sig : Str) : List (Str × Str) :=
  [(lit " v", lit "1"), (lit " a", lit "rsa-sha256"), (lit " c", lit "relaxed/relaxed"), (lit " d", s.domain),
    (lit " s", s.selector), (lit " t", formatInt unix), (lit " h", List.intercalate (lit ":") signedHeaders),
    (lit " bh", Base64.encode bodyHash), (lit " b", sig)]

lemma tag_eq [Base64] (s : Signer) (unix : Int) (bodyHash sig : Str) :
    32 :: (s.tag unix signedHeaders bodyHash ++ sig) = writeTags (s.tags unix bodyHash sig) := by
  have opening : lit "v=1; a=rsa-sha256; c=relaxed/relaxed; d=" = lit "v" ++ 61 :: lit "1" ++ 59 ::
      (lit " a" ++ 61 :: lit "rsa-sha256") ++ 59 :: (lit " c" ++ 61 :: lit "relaxed/relaxed") ++ 59 :: (lit " d" ++ [61]) := rfl
  have selector : lit "; s=" = 59 :: (lit " s" ++ [61]) := rfl
  have time : lit "; t=" = 59 :: (lit " t" ++ [61]) := rfl
  have list : lit "; h=" = 59 :: (lit " h" ++ [61]) := rfl
  have hash : lit "; bh=" = 59 :: (lit " bh" ++ [61]) := rfl
  have last : lit "; b=" = 59 :: (lit " b" ++ [61]) := rfl
  have first : lit " v" = 32 :: lit "v" := rfl
  simp [Signer.tag, writeTags, Signer.tags, opening, selector, time, list, hash, last, first, List.intercalate_cons_cons]

lemma encode_tagText [Base64] (data : Str) : TagText (Base64.encode data) := by
  have letters : TagText base64StdAlphabet := by decide +kernel
  exact fun b member => letters b (Base64.letters data b member)

lemma formatInt_tagText (n : Int) : TagText (formatInt n) := by
  intro b member
  rcases mem_formatInt n b member with rfl | ⟨low, high⟩
  · decide
  · have low : 48 ≤ b.toNat := low
    have high : b.toNat ≤ 57 := high
    refine ⟨Nat.le_trans (by decide) low, Nat.le_trans high (by decide), ?_⟩
    rintro rfl
    exact absurd high (by decide)

variable {s contentType : Str} {m : Message}

lemma TagText.whole (text : TagText s) : 59 ∉ s := fun member => (text 59 member).2.2 rfl

lemma tags_tagList [Base64] {s : Signer} (proper : s.Proper) (unix : Int) (bodyHash sig : Str) :
    TagList (s.tags unix bodyHash (Base64.encode sig)) := by
  refine ⟨List.cons_ne_nil _ _, ?_⟩
  have names : ∀ name ∈ (s.tags unix bodyHash (Base64.encode sig)).map Prod.fst, 61 ∉ name ∧ 59 ∉ name := by
    change ∀ name ∈ [lit " v", lit " a", lit " c", lit " d", lit " s", lit " t", lit " h", lit " bh", lit " b"], _
    decide
  intro tag member
  obtain ⟨noEquals, noSemicolon⟩ := names tag.1 (List.mem_map_of_mem member)
  refine ⟨noEquals, noSemicolon, ?_⟩
  simp only [Signer.tags, List.mem_cons, List.not_mem_nil, or_false] at member
  rcases member with rfl | rfl | rfl | rfl | rfl | rfl | rfl | rfl | rfl
  · decide +kernel
  · decide +kernel
  · decide +kernel
  · exact proper.1.whole
  · exact proper.2.whole
  · exact (formatInt_tagText unix).whole
  · decide +kernel
  · exact (encode_tagText bodyHash).whole
  · exact (encode_tagText sig).whole

def Printed (s : Str) : Prop := ∀ b ∈ s, 32 ≤ b ∧ b ≤ 126

instance (s : Str) : Decidable (Printed s) := List.decidableBAll _ s

lemma Printed.append {t : Str} (left : Printed s) (right : Printed t) : Printed (s ++ t) :=
  List.forall_mem_append.mpr ⟨left, right⟩

lemma Printed.plain (printed : Printed s) : Plain s := by
  intro b member
  have low := (printed b member).1
  exact ⟨fun same => absurd (same ▸ low) (by decide), fun same => absurd (same ▸ low) (by decide)⟩

lemma Printed.utf8 (printed : Printed s) : Utf8 s := by
  apply Ascii.utf8
  intro b member
  have high : b.toNat ≤ 126 := (printed b member).2
  exact Nat.lt_of_le_of_lt high (by decide)

lemma TagText.printed (text : TagText s) : Printed s := fun b member =>
  ⟨Nat.le_trans (by decide : 32 ≤ 33) (text b member).1, (text b member).2.1⟩

lemma tag_printed [Base64] {s : Signer} (proper : s.Proper) (unix : Int) (bodyHash : Str) :
    Printed (s.tag unix signedHeaders bodyHash) := by
  unfold Signer.tag
  have names : Printed (List.intercalate (lit ":") signedHeaders) := by decide +kernel
  have opening : Printed (lit "v=1; a=rsa-sha256; c=relaxed/relaxed; d=" ++ s.domain) :=
    .append (by decide +kernel) proper.1.printed
  have selected := (opening.append (by decide : Printed (lit "; s="))).append proper.2.printed
  have timed := (selected.append (by decide : Printed (lit "; t="))).append (formatInt_tagText unix).printed
  have listed := (timed.append (by decide : Printed (lit "; h="))).append names
  have hashes := (listed.append (by decide : Printed (lit "; bh="))).append (encode_tagText bodyHash).printed
  exact hashes.append (by decide)

lemma Header.line_plain {h : Header} (name : Plain h.name) (value : Plain h.value) : Plain h.line :=
  (name.append (by decide)).append value

lemma FieldName.plain {name : Str} (valid : FieldName name) : Plain name := by
  apply Printed.plain
  intro b member
  exact ⟨Nat.le_trans (by decide : 32 ≤ 33) (valid.2 b member).1, (valid.2 b member).2.1⟩

lemma FieldName.separate {h : Header} (valid : FieldName h.name) : h.Separate := by
  refine ⟨fun member => (valid.2 58 member).2.2 rfl, ?_⟩
  cases same : h.name with
  | nil => rfl
  | cons b rest => simpa [folded] using valid.visible b (same ▸ List.mem_cons_self)

def Header.field (h : Header) : Str × Str := (h.name, 32 :: h.value)

section
variable [Unicode] [Base64]

def Signer.header (s : Signer) (unix : Int) (bodyHash sig : Str) : Header :=
  ⟨lit "DKIM-Signature", s.tag unix signedHeaders bodyHash ++ Base64.encode sig⟩

omit [Base64] in
lemma fieldNamed_present {headers : List Header} (valid : ∀ h ∈ headers, FieldName h.name) {own : Header}
    {name : Str} (other : relaxedName own.name ≠ name) :
    fieldNamed ((own :: headers).map Header.field).reverse name = (present headers name).map Header.field := by
  have last : (own.field :: []).find? (fun field => relaxedName field.1 = name) = none := by
    simp [Header.field, other]
  unfold fieldNamed present
  rw [List.map_cons, List.reverse_cons, List.find?_append, last, Option.or_none, ← List.map_reverse, List.find?_map]
  congr 1
  apply List.find?_congr
  intro h member
  simp [Header.field, (valid h (List.mem_reverse.mp member)).relaxedName]

lemma signedFields_eq {headers : List Header} {s : Signer} (proper : s.Proper)
    (valid : ∀ h ∈ headers, FieldName h.name ∧ Plain h.value ∧ Utf8 h.value) (unix : Int) (bodyHash sig : Str) :
    signedFields ((s.header unix bodyHash sig :: headers).map Header.field) =
      some (signedText headers (s.tag unix signedHeaders bodyHash)) := by
  have own : fieldNamed ((s.header unix bodyHash sig :: headers).map Header.field) (lit "dkim-signature") =
      some (s.header unix bodyHash sig).field := rfl
  have value : (s.header unix bodyHash sig).field.2 = writeTags (s.tags unix bodyHash (Base64.encode sig)) :=
    tag_eq s unix bodyHash (Base64.encode sig)
  have list := tags_tagList proper unix bodyHash sig
  have names : tagValue (lit "h") (s.header unix bodyHash sig).field.2 =
      some (List.intercalate (lit ":") signedHeaders) := by
    rw [value, tagValue_writeTags list]
    rfl
  have emptied : unsigned (s.header unix bodyHash sig).field.2 = 32 :: s.tag unix signedHeaders bodyHash := by
    have without := tag_eq s unix bodyHash []
    rw [List.append_nil] at without
    rw [value, unsigned_writeTags list, without]
    rfl
  have ordered : (split 58 (List.intercalate (lit ":") signedHeaders)).map relaxedName = signedHeaders := by
    decide +kernel
  have distinct : signedHeaders.Nodup ∧ lit "dkim-signature" ∉ signedHeaders := by decide +kernel
  have ownName : relaxedName (s.header unix bodyHash sig).name = lit "dkim-signature" := by
    change relaxedName (lit "DKIM-Signature") = _
    decide +kernel
  have chosen : select signedHeaders ((s.header unix bodyHash sig :: headers).map Header.field).reverse =
      (signedHeaders.filterMap (present headers)).map Header.field := by
    rw [select_eq distinct.1, List.map_filterMap]
    apply List.filterMap_congr
    intro name member
    have other : relaxedName (s.header unix bodyHash sig).name ≠ name := fun same =>
      distinct.2 (ownName.symm.trans same ▸ member)
    exact fieldNamed_present (fun h listed => (valid h listed).1) other
  have canonical : ∀ h ∈ signedHeaders.filterMap (present headers),
      relaxedField h.field ++ crlf = canonicalizeHeader h.name h.value := by
    intro h member
    obtain ⟨name, -, found⟩ := List.mem_filterMap.mp member
    obtain ⟨named, plain, utf8⟩ := valid h (List.mem_reverse.mp (List.mem_of_find?_eq_some found))
    rw [canonicalizeHeader, canonicalizeHeaderNoCRLF_eq named plain utf8]
    rfl
  have printed := tag_printed proper unix bodyHash
  have last : relaxedField (lit "DKIM-Signature", 32 :: s.tag unix signedHeaders bodyHash) =
      canonicalizeHeaderNoCRLF (lit "DKIM-Signature") (s.tag unix signedHeaders bodyHash) :=
    (canonicalizeHeaderNoCRLF_eq (by decide) printed.plain printed.utf8).symm
  unfold signedFields signedText
  simp only [own, names, Option.bind_eq_bind, Option.bind_some, ordered, chosen, emptied, List.flatMap_map,
    Option.pure_def, Option.some.injEq]
  exact congrArg₂ _ (List.flatMap_congr canonical) last

/-- The message that arrives has a verifier hash what was signed. -/
lemma verifierInput_received {headers : List Header} {s : Signer} (proper : s.Proper)
    (valid : ∀ h ∈ headers, FieldName h.name ∧ Plain h.value ∧ Utf8 h.value) {body : Str} (utf8 : Utf8 body)
    (pairs : paired false body = true) (unix : Int) (bodyHash sig : Str) :
    ∃ message, received (dotStuff (render (s.header unix bodyHash sig :: headers) body)) = some message ∧
      verifierInput message = some (canonicalizeBody body, signedText headers (s.tag unix signedHeaders bodyHash)) := by
  have fields := signedFields_eq proper valid unix bodyHash sig
  have ownName : (s.header unix bodyHash sig).name = lit "DKIM-Signature" := rfl
  have ownPlain : Plain (s.header unix bodyHash sig).value :=
    ((tag_printed proper unix bodyHash).append (encode_tagText sig).printed).plain
  generalize s.header unix bodyHash sig = own at fields ownName ownPlain ⊢
  have plain : ∀ h ∈ own :: headers, Plain h.name ∧ Plain h.value := by
    intro h member
    rcases List.mem_cons.mp member with rfl | member
    · rw [ownName]
      exact ⟨by decide, ownPlain⟩
    · exact ⟨(valid h member).1.plain, (valid h member).2.1⟩
  have lines : ∀ line ∈ (own :: headers).map Header.line, Plain line := by
    intro line member
    obtain ⟨h, listed, rfl⟩ := List.mem_map.mp member
    exact Header.line_plain (plain h listed).1 (plain h listed).2
  have bare : 58 ∉ own.name := by
    rw [ownName]
    decide
  obtain ⟨body', arrived, same⟩ := received_message lines pairs
  rw [← render_eq, ← render_eq] at arrived
  refine ⟨_, arrived, ?_⟩
  have parsed := parseMessage_separate plain bare (fun h member => (valid h member).1.separate) body'
  unfold verifierInput
  rw [parsed, canonicalizeBody_eq utf8 pairs, ← same]
  simp only [Option.bind_eq_bind, Option.bind_some]
  change (signedFields ((own :: headers).map Header.field)).bind _ = _
  rw [fields]
  rfl

end

structure Message.IsUtf8 (m : Message) : Prop where
  from_ : Utf8 m.from_
  to_ : Utf8 m.to_
  subject : Utf8 m.subject
  text : Utf8 m.text
  html : Utf8 m.html
  extra : ∀ h ∈ m.extra, Utf8 h.value

lemma alternatives_closed {P : Str → Prop} (joined : ∀ {s t : Str}, P s → P t → P (s ++ t))
    {boundary text html : Str} (bound : P boundary) (plainText : P (normaliseNewlines text))
    (richText : P (normaliseNewlines html))
    (fixed : ∀ s ∈ [lit "--", lit "\r\n", lit "Content-Type: text/plain; charset=utf-8\r\n\r\n",
      lit "Content-Type: text/html; charset=utf-8\r\n\r\n", lit "--\r\n"], P s) :
    P (alternatives boundary text html) := by
  have dashes := fixed (lit "--") (by simp)
  have ends := fixed (lit "\r\n") (by simp)
  have plainType := fixed (lit "Content-Type: text/plain; charset=utf-8\r\n\r\n") (by simp)
  have richType := fixed (lit "Content-Type: text/html; charset=utf-8\r\n\r\n") (by simp)
  have closing := fixed (lit "--\r\n") (by simp)
  have first := joined (joined (joined (joined (joined (joined dashes bound) ends) plainType) plainText) ends) dashes
  have second := joined (joined (joined (joined (joined first bound) ends) richType) richText) ends
  exact joined (joined (joined second dashes) bound) closing

lemma Message.Content.utf8 {body : Str} (content : m.Content contentType body)
    (utf8 : m.IsUtf8) : Utf8 contentType ∧ Utf8 body := by
  cases content with
  | both bytes =>
    have boundary : Utf8 (base64RawURL bytes) := (base64RawURL_ascii bytes).utf8
    refine ⟨Utf8.append (Utf8.append (Ascii.utf8 (by decide)) boundary) (Ascii.utf8 (by decide)), ?_⟩
    apply alternatives_closed Utf8.append boundary (normaliseNewlines_utf8 utf8.text) (normaliseNewlines_utf8 utf8.html)
    have ascii : ∀ s ∈ [lit "--", lit "\r\n", lit "Content-Type: text/plain; charset=utf-8\r\n\r\n",
        lit "Content-Type: text/html; charset=utf-8\r\n\r\n", lit "--\r\n"], Ascii s := by decide +kernel
    exact fun s member => (ascii s member).utf8
  | html => exact ⟨Ascii.utf8 (by decide), normaliseNewlines_utf8 utf8.html⟩
  | text => exact ⟨Ascii.utf8 (by decide), normaliseNewlines_utf8 utf8.text⟩

lemma Message.Content.pairs {body : Str} (content : m.Content contentType body) : paired false body = true := by
  cases content with
  | both bytes =>
    have boundary : 10 ∉ base64RawURL bytes := fun member => (base64RawURL_plain bytes 10 member).2 rfl
    apply alternatives_closed (P := fun s => paired false s = true) paired_append (paired_bare boundary false)
      (normaliseNewlines_paired _) (normaliseNewlines_paired _)
    decide +kernel
  | html => exact normaliseNewlines_paired m.html
  | text => exact normaliseNewlines_paired m.text

lemma service_utf8 [Library] [LawfulLibrary] (utf8 : m.IsUtf8) {messageID : Str}
    (ofID : Utf8 messageID) (ofType : Utf8 contentType) (now : Int) :
    ∀ h ∈ m.service now messageID contentType, Utf8 h.value := by
  intro h member
  simp only [Message.service, List.mem_cons, List.not_mem_nil, or_false] at member
  rcases member with rfl | rfl | rfl | rfl | rfl | rfl | rfl
  · exact utf8.from_
  · exact utf8.to_
  · exact LawfulLibrary.qEncode_utf8 utf8.subject
  · exact LawfulLibrary.formatDate_utf8 now
  · exact Utf8.append (Utf8.append (Ascii.utf8 (by decide)) ofID) (Ascii.utf8 (by decide))
  · exact Ascii.utf8 (by decide : Ascii (lit "1.0"))
  · exact ofType

lemma service_present [Unicode] [Library] (m : Message) (now : Int) (messageID contentType : Str) (extra : List Header) :
    ∀ name ∈ signedHeaders, (present (m.service now messageID contentType ++ extra) name).isSome := by
  have names : signedHeaders = serviceNames.map fun name => name.map lowerByte := by decide +kernel
  have ascii : ∀ name ∈ serviceNames, Ascii name := by decide +kernel
  intro name member
  rw [names, ← service_names m now messageID contentType, List.map_map] at member
  obtain ⟨h, listed, rfl⟩ := List.mem_map.mp member
  apply List.find?_isSome.mpr
  refine ⟨h, List.mem_reverse.mpr (List.mem_append_left _ listed), ?_⟩
  simp [toLower_ascii (ascii _ (mem_serviceNames listed))]

def Wire.carries (opt : SendOptions) : Wire → Prop
  | .write data => data = dotStuff opt.data
  | _ => True

lemma step_carries (opt : SendOptions) (cmd : Str) : (step cmd).Only (Wire.carries opt) := by
  unfold step
  split
  · exact (Prog.only_ask _).mpr trivial
  · refine .bind ((Prog.only_ask _).mpr trivial) fun answer => ?_
    cases answer with
    | error err => trivial
    | ok => exact (Prog.only_ask _).mpr trivial

lemma stage_carries {opt : SendOptions} {cmd : Str} {expected : List Int} {used : Bool} {next : Str → Talk Outcome}
    (rest : ∀ text, (next text).Only (Wire.carries opt)) : (stage cmd expected used next).Only (Wire.carries opt) := by
  unfold stage
  refine .bind (step_carries opt cmd) fun answer => ?_
  cases answer with
  | error err => trivial
  | ok reply =>
    dsimp only
    split
    · exact rest _
    · trivial

lemma transfer_carries (opt : SendOptions) (used : Bool) : (transfer opt used).Only (Wire.carries opt) := by
  unfold transfer
  apply stage_carries
  intro _
  apply stage_carries
  intro _
  apply stage_carries
  intro _
  refine .bind ((Prog.only_ask _).mpr rfl) fun answer => ?_
  cases answer with
  | error err => trivial
  | ok =>
    refine .bind (step_carries opt []) fun answer => ?_
    cases answer with
    | error err => trivial
    | ok reply => exact .bind (step_carries opt _) fun _ => trivial

lemma Send_carries [Unicode] (opt : SendOptions) : (Send opt).Only (Wire.carries opt) := by
  have conversation : (converse opt).Only (Wire.carries opt) := by
    unfold converse
    apply stage_carries
    intro _
    apply stage_carries
    intro text
    split
    · apply stage_carries
      intro _
      refine .bind ((Prog.only_ask _).mpr trivial) fun answer => ?_
      cases answer with
      | error err => trivial
      | ok => exact stage_carries fun _ => transfer_carries opt true
    · exact transfer_carries opt false
  unfold Send
  refine .bind ((Prog.only_ask _).mpr trivial) fun _ => .bind conversation fun _ => ?_
  exact .bind ((Prog.only_ask _).mpr trivial) fun _ => trivial

/-- What was hashed for the signature is what a verifier hashes that is handed the data of
any delivery of the message. -/
theorem signed_as_received [Unicode] [Library] [LawfulLibrary] [Base64] {S T R : Type} {V : World calls S}
    {W : World seals T} {X : World wire R} {s s' : S} {t t' : T} {r r' : R} {building : Trace calls}
    {signing : Trace seals} {sending : Trace wire} {m : Message} {signer : Signer} {now : Int}
    {messageID body line : Str} {headers : List Header} {opt : SendOptions} {rest : Talk Outcome}
    (oneLine : Plain messageID) (ofID : Utf8 messageID) (proper : signer.Proper) (utf8 : m.IsUtf8)
    (names : ∀ h ∈ m.extra, FieldName h.name)
    (built : Runs V (m.Build now messageID) s building (.done (.ok (headers, body))) s')
    (signed : Runs W (signer.Sign headers body) t signing (.done (.ok line)) t')
    (carried : opt.data = line ++ render headers body) (sent : Runs X (Send opt) r sending rest r') :
    ∀ data answer, ⟨.write data, answer⟩ ∈ sending → ∃ message bodyText headerText, received data = some message ∧
      verifierInput message = some (bodyText, headerText) ∧ hashed signing = [bodyText, headerText] := by
  have built := (Build_built V s m now messageID).result built headers body rfl
  have plain := built.plain oneLine
  obtain ⟨contentType, content, rfl⟩ := built.composed
  obtain ⟨ofType, ofBody⟩ := content.utf8 utf8
  have valid : ∀ h ∈ m.service now messageID contentType ++ m.extra, FieldName h.name ∧ Plain h.value ∧ Utf8 h.value := by
    have own : ∀ name ∈ serviceNames, FieldName name := by decide +kernel
    intro h member
    refine ⟨?_, (plain h member).2, ?_⟩
    · rcases List.mem_append.mp member with member | member
      · exact own _ (mem_serviceNames member)
      · exact names h member
    · rcases List.mem_append.mp member with member | member
      · exact service_utf8 utf8 ofID ofType now h member
      · exact utf8.extra h member
  obtain ⟨unix, bodyHash, sig, hashes, rfl⟩ := Sign_runs (service_present m now messageID contentType m.extra) signed
  intro data answer written
  have stuffed : data = dotStuff opt.data := ((Send_carries opt).upholds (P := fun e : Event wire => Wire.carries opt e.op)
    (fun _ carries => carries)).run sent _ written
  have whole : lit "DKIM-Signature: " ++ signer.tag unix signedHeaders bodyHash ++ Base64.encode sig ++ crlf ++
      render (m.service now messageID contentType ++ m.extra) body =
        render (signer.header unix bodyHash sig :: (m.service now messageID contentType ++ m.extra)) body := by
    have name : lit "DKIM-Signature: " = lit "DKIM-Signature" ++ lit ": " := rfl
    simp only [render, Signer.header, List.flatMap_cons, name, List.append_assoc]
    rfl
  obtain ⟨message, arrived, same⟩ := verifierInput_received proper valid ofBody content.pairs unix bodyHash sig
  exact ⟨message, _, _, by rw [stuffed, carried, whole, arrived], same, hashes⟩

/-! A message with dots, blanks and empty lines, signed and sent. -/

def dotted : Message := { letter tagged with text := lit ".a  b \n\n" }

def dottedHeaders : List Header := dotted.service 0 (lit "1@x.test") (lit "text/plain; charset=utf-8") ++ tagged

def dottedBody : Str := lit ".a  b \r\n\r\n"

def testSigner : Signer := ⟨lit "x.test", lit "s1"⟩

def notary : Player seals Unit := fun _ o =>
  match o with
  | .now => ((7 : Int), ())
  | .sum256 data => (data.take 4, ())
  | .signPKCS1v15 digest => (.ok digest, ())

def signedLine : Str :=
  match ((testSigner.Sign dottedHeaders dottedBody).play notary ()).2.1 with
  | .ok line => line
  | .error _ => []

def server : Player wire (List Int) := fun codes o =>
  match o with
  | .readFullReply => (.ok (codes.headD 250, lit "250 ok"), codes.tail)
  | .setDeadline _ | .close => ((), codes)
  | .writeString _ | .handshake _ | .write _ => (.ok (), codes)

def delivery : SendOptions :=
  { mxHost := lit "mx", mailFrom := lit "a@x.test", rcptTo := lit "b@y.test", helo := lit "x.test",
    data := signedLine ++ render dottedHeaders dottedBody, timeout := 1 }

theorem dotted_signed_as_received : ∃ message bodyText headerText, received (dotStuff delivery.data) = some message ∧
    verifierInput message = some (bodyText, headerText) ∧
    hashed ((testSigner.Sign dottedHeaders dottedBody).play notary ()).1 = [bodyText, headerText] := by
  have utf8 : dotted.IsUtf8 :=
    ⟨Ascii.utf8 (by decide), Ascii.utf8 (by decide), Ascii.utf8 (by decide), Ascii.utf8 (by decide), .nil,
      fun h member => by rw [List.mem_singleton.mp member]; exact Ascii.utf8 (by decide)⟩
  have built : Runs World.free (dotted.Build 0 (lit "1@x.test")) () [] (.done (.ok (dottedHeaders, dottedBody))) () := .stop
  have signed : Runs World.free (testSigner.Sign dottedHeaders dottedBody) ()
      ((testSigner.Sign dottedHeaders dottedBody).play notary ()).1 (.done (.ok signedLine)) () :=
    Prog.play_runs (fun _ : Unit => ()) (fun _ _ => trivial) (testSigner.Sign dottedHeaders dottedBody) ()
  have sent : Runs World.free (Send delivery) () ((Send delivery).play server [220, 250, 250, 250, 354]).1 _ () :=
    Prog.play_runs (fun _ : List Int => ()) (fun _ _ => trivial) (Send delivery) [220, 250, 250, 250, 354]
  have written : ((Send delivery).play server [220, 250, 250, 250, 354]).1[10]? =
      some ⟨.write (dotStuff delivery.data), .ok ()⟩ := rfl
  exact signed_as_received (by decide) (Ascii.utf8 (by decide)) (by decide) utf8 (by decide) built signed
    rfl sent _ _ (List.mem_of_getElem? written)

end EmailVerifier.Relay
