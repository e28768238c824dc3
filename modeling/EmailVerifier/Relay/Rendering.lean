import EmailVerifier.Relay.Message
import EmailVerifier.Semantics.Triple
import EmailVerifier.Text.Headers
import EmailVerifier.Text.Utf8

/-! A rendered message, read back.

`Build` refuses CR and LF in whatever the caller supplies and refuses the names that the
service sets. What is left is that a name may be cut at a colon or taken for the
continuation of the line above.
-/

set_option autoImplicit false

namespace EmailVerifier.Relay
open Text Semantics

/-- What the library documents: encoded words and dates are of one line, and UTF-8. -/
class LawfulLibrary [Library] : Prop where
  qEncode_plain : ∀ {s : Str}, Plain s → Plain (Library.qEncode s)
  qEncode_utf8 : ∀ {s : Str}, Utf8 s → Utf8 (Library.qEncode s)
  formatDate_plain : ∀ t : Int, Plain (Library.formatDate t)
  formatDate_utf8 : ∀ t : Int, Utf8 (Library.formatDate t)

instance : LawfulLibrary where
  qEncode_plain plain := plain
  qEncode_utf8 utf8 := utf8
  formatDate_plain _ := (by decide : Plain epoch)
  formatDate_utf8 _ := (by decide : Ascii epoch).utf8

section
variable [Unicode] [Library]

def Message.service (m : Message) (now : Int) (messageID contentType : Str) : List Header :=
  [⟨lit "From", m.from_⟩, ⟨lit "To", m.to_⟩, ⟨lit "Subject", encodeSubject m.subject⟩,
    ⟨lit "Date", Library.formatDate now⟩, ⟨lit "Message-ID", lit "<" ++ messageID ++ lit ">"⟩,
    ⟨lit "MIME-Version", lit "1.0"⟩, ⟨lit "Content-Type", contentType⟩]

def serviceNames : List Str :=
  [lit "From", lit "To", lit "Subject", lit "Date", lit "Message-ID", lit "MIME-Version", lit "Content-Type"]

omit [Unicode] in
lemma service_names (m : Message) (now : Int) (messageID contentType : Str) :
    (m.service now messageID contentType).map Header.name = serviceNames := rfl

omit [Unicode] in
lemma mem_serviceNames {m : Message} {now : Int} {messageID contentType : Str} {h : Header}
    (member : h ∈ m.service now messageID contentType) : h.name ∈ serviceNames :=
  List.mem_map_of_mem member

inductive Message.Content (m : Message) : Str → Str → Prop where
  | both (bytes : Str) : m.html ≠ [] → m.text ≠ [] → m.Content (lit "multipart/alternative; boundary=\"" ++ base64RawURL bytes ++ lit "\"")
      (alternatives (base64RawURL bytes) m.text m.html)
  | html : m.html ≠ [] → m.text = [] → m.Content (lit "text/html; charset=utf-8") (normaliseNewlines m.html)
  | text : m.html = [] → m.Content (lit "text/plain; charset=utf-8") (normaliseNewlines m.text)

structure Message.Built (m : Message) (now : Int) (messageID : Str) (headers : List Header) (body : Str) : Prop where
  valid : m.validate = .ok ()
  composed : ∃ contentType, m.Content contentType body ∧ headers = m.service now messageID contentType ++ m.extra
  permitted : ∀ h ∈ m.extra, toLower (trimSpace h.name) ∉ reservedHeaders

lemma addExtra_ok {extra headers all : List Header} (added : addExtra headers extra = .ok all) :
    all = headers ++ extra ∧ ∀ h ∈ extra, toLower (trimSpace h.name) ∉ reservedHeaders := by
  induction extra generalizing headers with
  | nil => exact ⟨by simpa [addExtra, eq_comm] using added, List.forall_mem_nil _⟩
  | cons h more ih =>
    unfold addExtra at added
    split at added
    · cases added
    · rename_i permitted
      obtain ⟨same, others⟩ := ih added
      exact ⟨by simp [same], List.forall_mem_cons.mpr ⟨permitted, others⟩⟩

lemma Build_built {S : Type} (W : World calls S) (s : S) (m : Message) (now : Int) (messageID : Str) :
    (m.Build now messageID).Ensures W
      (fun out _ => ∀ headers body, out = .ok (headers, body) → m.Built now messageID headers body) s := by
  have finish {contentType body' : Str} (valid : m.validate = .ok ()) (content : m.Content contentType body')
      (headers : List Header) (body : Str)
      (same : (addExtra (m.service now messageID contentType) m.extra).map (fun all => (all, body')) =
        .ok (headers, body)) : m.Built now messageID headers body := by
    cases added : addExtra (m.service now messageID contentType) m.extra with
    | error err => simp [added, Except.map] at same
    | ok all =>
      rw [added] at same
      obtain ⟨rfl, rfl⟩ : all = headers ∧ body' = body := by simpa [Except.map] using same
      obtain ⟨composed, permitted⟩ := addExtra_ok added
      exact ⟨valid, ⟨contentType, content, composed⟩, permitted⟩
  unfold Message.Build
  split
  · exact nofun
  rename_i valid
  dsimp only
  split
  · rename_i given
    unfold randomToken randRead
    intro drawn s' _
    cases drawn with
    | error err => exact nofun
    | ok bytes => exact finish valid (.both bytes.val given.1 given.2)
  rename_i one
  split
  · rename_i html
    exact finish valid (.html html (by simpa [html] using one))
  · rename_i html
    exact finish valid (.text (not_not.mp html))

omit [Unicode] [Library] in
lemma bind_ok {A B E : Type} {x : Except E A} {f : A → Except E B} {b : B} (both : x >>= f = .ok b) :
    ∃ a, x = .ok a ∧ f a = .ok b := by
  cases x with
  | error err => cases both
  | ok a => exact ⟨a, rfl, both⟩

omit [Unicode] [Library] in
lemma forIn_checked {A E : Type} {bad : A → Bool} {err : E} (l : List A)
    (passed : (forIn l PUnit.unit fun x _ =>
      if bad x = true then do
        (throw err : Except E PUnit)
        pure (ForInStep.yield PUnit.unit)
      else pure (ForInStep.yield PUnit.unit) : Except E PUnit) = .ok .unit) : ∀ x ∈ l, bad x = false := by
  induction l with
  | nil => exact List.forall_mem_nil _
  | cons x more ih =>
    rw [List.forIn_cons] at passed
    split at passed
    · cases passed
    · rename_i good
      exact List.forall_mem_cons.mpr ⟨by simpa using good, ih passed⟩

omit [Unicode] in
lemma validate_plain {m : Message} (valid : m.validate = .ok ()) :
    ∀ value ∈ [m.subject, m.from_, m.to_] ++ extraValues m.extra, Plain value := by
  unfold Message.validate at valid
  dsimp only at valid
  split at valid
  · cases valid
  split at valid
  · cases valid
  split at valid
  · cases valid
  split at valid
  · cases valid
  obtain ⟨-, -, valid⟩ := bind_ok valid
  obtain ⟨⟨⟩, checked, -⟩ := bind_ok valid
  intro value member b inside
  have good := forIn_checked _ checked value member
  simpa using List.any_eq_false.mp good b inside

omit [Unicode] [Library] in
lemma base64RawURL_plain (s : Str) : Plain (base64RawURL s) := by
  have letters : Plain base64URLAlphabet := by decide +kernel
  exact fun b member => letters b (base64RawURL_subset s b member)

omit [Unicode] [Library] in
lemma Message.Content.plain {m : Message} {contentType body : Str} (content : m.Content contentType body) :
    Plain contentType := by
  cases content with
  | both bytes => exact (Plain.append (by decide) (base64RawURL_plain bytes)).append (by decide)
  | html => decide
  | text => decide

lemma Message.Built.plain [LawfulLibrary] {m : Message} {now : Int} {messageID body : Str} {headers : List Header}
    (built : m.Built now messageID headers body) (plainID : Plain messageID) :
    ∀ h ∈ headers, Plain h.name ∧ Plain h.value := by
  have supplied := validate_plain built.valid
  obtain ⟨contentType, content, rfl⟩ := built.composed
  have given : ∀ value ∈ [m.subject, m.from_, m.to_], Plain value := fun value member =>
    supplied value (List.mem_append_left _ member)
  intro h member
  rcases List.mem_append.mp member with member | member
  · have names : ∀ name ∈ serviceNames, Plain name := by decide
    have date := LawfulLibrary.formatDate_plain now
    have subject := LawfulLibrary.qEncode_plain (given m.subject (by simp))
    have identity : Plain (lit "<" ++ messageID ++ lit ">") := (Plain.append (by decide) plainID).append (by decide)
    refine ⟨names _ (mem_serviceNames member), ?_⟩
    simp only [Message.service, List.mem_cons, List.not_mem_nil, or_false] at member
    rcases member with rfl | rfl | rfl | rfl | rfl | rfl | rfl
    · exact given m.from_ (by simp)
    · exact given m.to_ (by simp)
    · exact subject
    · exact date
    · exact identity
    · exact (by decide : Plain (lit "1.0"))
    · exact content.plain
  · have both : ∀ value ∈ [h.name, h.value], Plain value := fun value inside =>
      supplied value (List.mem_append_right _ (List.mem_flatMap.mpr ⟨h, member, inside⟩))
    exact ⟨both _ (by simp), both _ (by simp)⟩

end

def Header.line (h : Header) : Str := h.name ++ lit ": " ++ h.value

lemma render_eq (headers : List Header) (body : Str) :
    render headers body = joinCRLF (headers.map Header.line) ++ crlf ++ body := by
  simp [render, joinCRLF, Header.line, List.flatMap_map]
  rfl

/-- A parser gets every header and the body, the blanks around a value apart. -/
def ReadBack (headers : List Header) (body : Str) : Prop :=
  ∃ fields, parseMessage (render headers body) = some (fields, body) ∧
    fields.map (fun field => (field.1, trimBlanks field.2)) = headers.map fun h => (h.name, trimBlanks h.value)

def Header.Separate (h : Header) : Prop := 58 ∉ h.name ∧ folded h.name = false

instance (h : Header) : Decidable h.Separate := inferInstanceAs (Decidable (_ ∧ _))

lemma Header.line_eq (h : Header) : h.line = h.name ++ 58 :: 32 :: h.value := by
  simp [Header.line, lit]
  rfl

lemma parseMessage_render {headers : List Header} (plain : ∀ h ∈ headers, Plain h.name ∧ Plain h.value) (body : Str) :
    parseMessage (render headers body) =
      ((unfoldLines (headers.map Header.line)).mapM (cut · 58)).map (·, body) := by
  rw [render_eq]
  apply parseMessage_message
  · intro line member
    obtain ⟨h, listed, rfl⟩ := List.mem_map.mp member
    exact ((Plain.append (plain h listed).1 (by decide)).append (plain h listed).2).clean
  · intro line member
    obtain ⟨h, listed, rfl⟩ := List.mem_map.mp member
    simp [Header.line_eq]

variable {first : Header} {rest : List Header} {A B : Type}

lemma mapM_map_some {C : Type} {f : A → B} {g : B → Option C} {k : A → C} {l : List A}
    (each : ∀ a ∈ l, g (f a) = some (k a)) : (l.map f).mapM g = some (l.map k) := by
  induction l with
  | nil => rfl
  | cons a more ih =>
    obtain ⟨first, others⟩ := List.forall_mem_cons.mp each
    simp [first, ih others]

lemma mapM_cons_some {f : A → Option B} {a : A} {more : List A} {found : List B}
    (all : (a :: more).mapM f = some found) : ∃ b others, f a = some b ∧ more.mapM f = some others ∧
      found = b :: others := by
  rw [List.mapM_cons] at all
  obtain ⟨b, first, all⟩ := Option.bind_eq_some_iff.mp all
  obtain ⟨others, rest, all⟩ := Option.bind_eq_some_iff.mp all
  exact ⟨b, others, first, rest, (Option.some.inj all).symm⟩

lemma exists_of_mem_mapM {f : A → Option B} {l : List A} {found : List B}
    (all : l.mapM f = some found) : ∀ b ∈ found, ∃ a ∈ l, f a = some b := by
  induction l generalizing found with
  | nil =>
    cases all
    exact List.forall_mem_nil _
  | cons a more ih =>
    obtain ⟨b, others, first, rest, rfl⟩ := mapM_cons_some all
    intro other member
    rcases List.mem_cons.mp member with rfl | member
    · exact ⟨a, List.mem_cons_self, first⟩
    · obtain ⟨a', listed, there⟩ := ih rest other member
      exact ⟨a', List.mem_cons_of_mem _ listed, there⟩

lemma trimBlanks_blank (s : Str) : trimBlanks (32 :: s) = trimBlanks s := by
  simp [trimBlanks, isBlank]

section Plain

variable (plain : ∀ h ∈ first :: rest, Plain h.name ∧ Plain h.value)
include plain

lemma parseMessage_separate (whole : 58 ∉ first.name)
    (separate : ∀ h ∈ rest, h.Separate) (body : Str) : parseMessage (render (first :: rest) body) =
      some ((first :: rest).map fun h => (h.name, 32 :: h.value), body) := by
  have flat : unfoldLines ((first :: rest).map Header.line) = (first :: rest).map Header.line := by
    apply unfoldLines_unfolded
    intro line member
    obtain ⟨h, listed, rfl⟩ := List.mem_map.mp member
    rw [Header.line_eq, folded_append _ _ _ rfl]
    exact (separate h listed).2
  have named : ∀ h ∈ first :: rest, cut h.line 58 = some (h.name, 32 :: h.value) := by
    intro h member
    rw [Header.line_eq]
    rcases List.mem_cons.mp member with rfl | member
    · exact cut_append whole _
    · exact cut_append (separate h member).1 _
  rw [parseMessage_render plain, flat, mapM_map_some named]
  rfl

lemma readBack_of_separate (whole : 58 ∉ first.name)
    (separate : ∀ h ∈ rest, h.Separate) (body : Str) : ReadBack (first :: rest) body := by
  refine ⟨(first :: rest).map fun h => (h.name, 32 :: h.value), parseMessage_separate plain whole separate body, ?_⟩
  simp [trimBlanks_blank]

/-- No parser returns a name with a colon in it or, past the first, one that starts with a
blank. -/
lemma separate_of_readBack {body : Str} (back : ReadBack (first :: rest) body) : ∀ h ∈ rest, h.Separate := by
  obtain ⟨fields, parsed, same⟩ := back
  rw [parseMessage_render plain] at parsed
  obtain ⟨fields', cuts, paired⟩ := Option.map_eq_some_iff.mp parsed
  obtain rfl : fields' = fields := (Prod.mk.inj paired).1
  obtain ⟨start, others, unfolded⟩ := unfoldLines_cons first.line (rest.map Header.line)
  have flat := folded_of_mem_unfoldLines (first.line :: rest.map Header.line)
  rw [unfolded] at flat
  rw [List.map_cons, unfolded] at cuts
  obtain ⟨top, fields, -, below, rfl⟩ := mapM_cons_some cuts
  have names : fields.map Prod.fst = rest.map Header.name := by
    simpa [Function.comp_def] using congrArg (fun l => (l.map Prod.fst).tail) same
  intro h member
  have named : h.name ∈ fields.map Prod.fst := names ▸ List.mem_map_of_mem member
  obtain ⟨field, listed, named⟩ := List.mem_map.mp named
  obtain ⟨line, among, split⟩ := exists_of_mem_mapM below field listed
  obtain ⟨bare, rfl⟩ := cut_eq_some split
  have starts := flat _ among
  rw [folded_append _ _ _ rfl] at starts
  rw [named] at bare starts
  exact ⟨bare, starts⟩

lemma readBack_iff (whole : 58 ∉ first.name) (body : Str) : ReadBack (first :: rest) body ↔ ∀ h ∈ rest, h.Separate :=
  ⟨separate_of_readBack plain, fun separate => readBack_of_separate plain whole separate body⟩

end Plain

def reserved [Unicode] (h : Header) : Bool := toLower (trimSpace h.name) ∈ reservedHeaders

lemma reserved_service [Unicode] [Library] (m : Message) (now : Int) (messageID contentType : Str) :
    ∀ h ∈ m.service now messageID contentType, reserved h = true := by
  have names : ∀ name ∈ serviceNames, trimSpace name = name ∧ Ascii name ∧ name.map lowerByte ∈ reservedHeaders := by
    decide +kernel
  intro h member
  obtain ⟨trimmed, ascii, listed⟩ := names _ (mem_serviceNames member)
  simpa [reserved, trimmed, toLower_ascii ascii] using listed

/-- A parser gets back the headers and the body of every message whose extra headers have
names that end at their colon and start a line. Of the names that the service keeps for
itself there are the ones it set, the content type being that of the body. -/
theorem rendered_readBack_iff [Unicode] [Library] [LawfulLibrary] {S : Type} {W : World calls S} {s t : S}
    {tr : Trace calls} {m : Message} {now : Int} {messageID body : Str} {headers : List Header}
    (oneLine : Plain messageID) (run : Runs W (m.Build now messageID) s tr (.done (.ok (headers, body))) t) :
    (ReadBack headers body ↔ ∀ h ∈ m.extra, h.Separate) ∧
      ∃ contentType, m.Content contentType body ∧ headers.filter reserved = m.service now messageID contentType := by
  have built := (Build_built W s m now messageID).result run headers body rfl
  have plain := built.plain oneLine
  obtain ⟨contentType, content, rfl⟩ := built.composed
  have own : ∀ name ∈ serviceNames, 58 ∉ name ∧ folded name = false := by decide
  have separate : ∀ h ∈ m.service now messageID contentType, h.Separate := fun h member =>
    own _ (mem_serviceNames member)
  refine ⟨?_, contentType, content, ?_⟩
  · apply (readBack_iff plain (separate _ List.mem_cons_self).1 body).trans
    constructor
    · intro all h member
      exact all h (List.mem_append_right _ member)
    · intro all h member
      rcases List.mem_append.mp member with member | member
      · exact separate h (List.mem_cons_of_mem _ member)
      · exact all h member
  · have kept : (m.service now messageID contentType).filter reserved = m.service now messageID contentType :=
      List.filter_eq_self.mpr (reserved_service m now messageID contentType)
    have dropped : m.extra.filter reserved = [] := by
      rw [List.filter_eq_nil_iff]
      intro h member
      simpa [reserved] using built.permitted h member
    rw [List.filter_append, kept, dropped, List.append_nil]

def letter (extra : List Header) : Message :=
  { from_ := lit "a@x.test", to_ := lit "b@y.test", subject := lit "Hi", text := lit "t", html := [], extra }

def letterHeaders (extra : List Header) : List Header :=
  (letter extra).service 0 (lit "1@x.test") (lit "text/plain; charset=utf-8") ++ extra

def tagged : List Header := [⟨lit "X-Tag", lit "1"⟩]

theorem tagged_readBack : (ReadBack (letterHeaders tagged) (lit "t") ↔ ∀ h ∈ tagged, h.Separate) ∧
    ∃ contentType, (letter tagged).Content contentType (lit "t") ∧
      (letterHeaders tagged).filter reserved = (letter tagged).service 0 (lit "1@x.test") contentType := by
  have run : Runs World.free ((letter tagged).Build 0 (lit "1@x.test")) () []
      (.done (.ok (letterHeaders tagged, lit "t"))) () := .stop
  exact rendered_readBack_iff (by decide) run

def forged : List Header := [⟨lit "From: ceo@x.test", lit "1"⟩]

/-- Whoever reads the message finds a second sender, that of the caller. -/
theorem colon_forges_sender : (letter forged).Build 0 (lit "1@x.test") = .done (.ok (letterHeaders forged, lit "t")) ∧
    ¬ ReadBack (letterHeaders forged) (lit "t") ∧ ∃ fields, parseMessage (render (letterHeaders forged) (lit "t")) = some (fields, lit "t") ∧
      fields.filter (fun field => field.1 = lit "From") =
        [(lit "From", lit " a@x.test"), (lit "From", lit " ceo@x.test: 1")] := by
  have plain : ∀ h ∈ letterHeaders forged, Plain h.name ∧ Plain h.value := by decide +kernel
  have merged : ¬ ∀ h ∈ forged, h.Separate := by decide +kernel
  refine ⟨rfl, fun back => merged fun h member => ?_, (letterHeaders forged).filterMap fun h => cut h.line 58, ?_, ?_⟩
  · exact separate_of_readBack plain back h (List.mem_append_right _ member)
  · decide +kernel
  · decide +kernel

end EmailVerifier.Relay
