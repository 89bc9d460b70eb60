import FieldSeal.Proofs.Client.Admission
import FieldSeal.Proofs.Client.Course
import FieldSeal.Proofs.Document.Canonical

/-!
Explicit encryption and decryption of single values. What comes back is read from the document the context ends with; a
binary is handed back to the engine in canonical form, whatever its spelling was. So a value that an engine keeps
comes back as it was.
-/

namespace FieldSeal

open FieldSeal.Action FieldSeal.Trace

namespace Client

variable {σ : Type} {setting : Setting σ} {scene : Scene σ} {c : Client}

section Answers

variable (op : Operation) {request : Request} (hrequest : op.request? = some request) (hvalid : op.Valid)
  (hbypass : ¬ c.Bypasses op)
include hrequest hvalid hbypass

/-- The answer is read from the document that the context ends with. -/
theorem perform_of_endsWith {document : Document} (h : EndsWith (c.perform op setting scene).trace document) :
    (c.perform op setting scene).ending = .ofExcept (op.answer document) := by
  obtain ⟨final, hexecuted, hending⟩ := perform_executed setting scene op hrequest hvalid hbypass
  obtain ⟨x, hx, hverdict⟩ := endsWith_iff.1 h
  rw [hending, hexecuted.decided hx hverdict]
  rfl

theorem exists_endsWith {answer : op.Answer} (h : (c.perform op setting scene).ending = .done answer) :
    ∃ document, EndsWith (c.perform op setting scene).trace document ∧ op.answer document = .ok answer := by
  obtain ⟨final, hexecuted, hending⟩ := perform_executed setting scene op hrequest hvalid hbypass
  rw [hending] at h
  cases final with
  | done document =>
    refine ⟨document, endsWith_iff.2 (hexecuted.exists_output rfl), ?_⟩
    rw [Operation.conclude] at h
    cases hread : op.answer document with
    | error e => simp [hread, Ending.ofExcept] at h
    | ok value =>
      rw [hread] at h
      rw [Ending.done.inj h]
  | failed e => cases h
  | expired => cases h
  | unfinished => cases h

end Answers

/-- What becomes of an explicit encryption, by the document its context ends with. -/
structure Sealing (t : List Event) (ending : Ending ClientError Binary) : Prop where
  binary : ∀ document b, EndsWith t document → Envelope.binary? document = some b → ending = .done b
  invalid : ∀ document, EndsWith t document → Envelope.binary? document = none →
    ∃ reason, ending = .failed (.invalidOutput reason)
  /-- A context that is done has nothing to read from. -/
  done : .engine .phase (.ok .done) ∈ t → ∃ reason, ending = .failed (.invalidOutput reason)
  only : ∀ b, ending = .done b → ∃ document, EndsWith t document ∧ Envelope.binary? document = some b

/-- What becomes of the explicit decryption of a binary. -/
structure Opening (b : Binary) (t : List Event) (ending : Ending ClientError Json) : Prop where
  /-- The engine is given a document whose only member is a spelling of the binary. -/
  asked : ∃ spelling answer rest, t = .engine (.createContext (.decryptValue [("v", spelling)])) answer :: rest ∧
    Binary.ofJson? spelling = some b
  value : ∀ document value, EndsWith t document → Fields.find? document "v" = some value → ending = .done value
  invalid : ∀ document, EndsWith t document → Fields.find? document "v" = none →
    ∃ reason, ending = .failed (.invalidOutput reason)
  only : ∀ value, ending = .done value →
    ∃ document, EndsWith t document ∧ Fields.find? document "v" = some value

theorem ofExcept_invalid {α : Type} {read : Except ClientError α} (hunread : ∀ a, read ≠ .ok a)
    (herror : ∀ e, read = .error e → ∃ reason, e = .invalidOutput reason) :
    ∃ reason, Ending.ofExcept read = .failed (.invalidOutput reason) := by
  cases read with
  | ok a => exact absurd rfl (hunread a)
  | error e =>
    obtain ⟨reason, rfl⟩ := herror e rfl
    exact ⟨reason, rfl⟩

theorem encryptExplicitly_sealing (setting : Setting σ) (scene : Scene σ) (c : Client) (value : Json)
    {options : EncryptOptions} (hvalid : options.Valid) :
    Sealing (c.encryptExplicitly value options setting scene).trace
      (c.encryptExplicitly value options setting scene).ending := by
  have hbypass : ¬ c.Bypasses (.encryptExplicitly value options) := fun h => by cases h.2
  have hends : ∀ document, EndsWith (c.encryptExplicitly value options setting scene).trace document →
      (c.encryptExplicitly value options setting scene).ending = .ofExcept (Envelope.unwrapBinary document) :=
    fun document h => perform_of_endsWith (.encryptExplicitly value options) rfl hvalid hbypass h
  have hinvalid : ∀ document, EndsWith (c.encryptExplicitly value options setting scene).trace document →
      Envelope.binary? document = none →
        ∃ reason, (c.encryptExplicitly value options setting scene).ending = .failed (.invalidOutput reason) := by
    intro document h hnone
    rw [hends document h]
    apply ofExcept_invalid
    · intro b hread
      simp [Envelope.unwrapBinary_eq_ok_iff.1 hread] at hnone
    · exact fun e => Envelope.unwrapBinary_error
  refine ⟨?_, hinvalid, ?_, ?_⟩
  · intro document b h hb
    rw [hends document h, Envelope.unwrapBinary_eq_ok_iff.2 hb]
    rfl
  · intro hdone
    exact hinvalid [] (.inr ⟨hdone, rfl⟩) rfl
  · intro b hb
    obtain ⟨document, hdocument, hread⟩ :=
      exists_endsWith (.encryptExplicitly value options) rfl hvalid hbypass hb
    exact ⟨document, hdocument, Envelope.unwrapBinary_eq_ok_iff.1 hread⟩

theorem decryptExplicitly_opening (setting : Setting σ) (scene : Scene σ) (hopen : c.closed = false) {b : Binary}
    (hsubtype : b.subtype = 6) :
    Opening b (c.decryptExplicitly b setting scene).trace (c.decryptExplicitly b setting scene).ending := by
  have hbypass : ¬ c.Bypasses (.decryptExplicitly b) := fun h => by cases h.2
  have hends : ∀ document, EndsWith (c.decryptExplicitly b setting scene).trace document →
      (c.decryptExplicitly b setting scene).ending = .ofExcept (Envelope.unwrap document) :=
    fun document h => perform_of_endsWith (.decryptExplicitly b) rfl hsubtype hbypass h
  refine ⟨?_, ?_, ?_, ?_⟩
  · obtain ⟨final, hexecuted, -⟩ :=
      perform_executed setting scene (.decryptExplicitly b) rfl hsubtype hbypass
    obtain ⟨answer, rest, htrace, -⟩ := hexecuted.asks hopen
    exact ⟨b.toJson, answer, rest, htrace, Binary.ofJson?_toJson b⟩
  · intro document value h hvalue
    rw [hends document h, Envelope.unwrap_eq_ok_iff.2 hvalue]
    rfl
  · intro document h hnone
    rw [hends document h]
    apply ofExcept_invalid
    · intro value hread
      simp [Envelope.unwrap_eq_ok_iff.1 hread] at hnone
    · exact fun e => Envelope.unwrap_error
  · intro value hvalue
    obtain ⟨document, hdocument, hread⟩ := exists_endsWith (.decryptExplicitly b) rfl hsubtype hbypass hvalue
    exact ⟨document, hdocument, Envelope.unwrap_eq_ok_iff.1 hread⟩

/-- A value goes to the engine and comes back. -/
structure Returns (setting : Setting σ) (scene : Scene σ) (c : Client) (value : Json) (options : EncryptOptions) :
    Prop where
  sealing : Sealing (c.encryptExplicitly value options setting scene).trace
    (c.encryptExplicitly value options setting scene).ending
  /-- A binary that was returned can be decrypted at any time, and under any circumstances. -/
  opening : ∀ b, (c.encryptExplicitly value options setting scene).ending = .done b → b.subtype = 6 →
    ∀ (later : Setting σ) (scene' : Scene σ),
      Opening b (c.decryptExplicitly b later scene').trace (c.decryptExplicitly b later scene').ending
  /-- Where the engine gives the envelope back that it was given, decryption undoes encryption. -/
  identity : ∀ document b, EndsWith (c.encryptExplicitly value options setting scene).trace document →
    Envelope.binary? document = some b → b.subtype = 6 →
      EndsWith (c.decryptExplicitly b setting (c.encryptExplicitly value options setting scene).scene).trace
        [("v", value)] →
        ((c.encryptExplicitly value options >>= c.decryptExplicitly) setting scene).ending = .done value

/-- Explicit decryption undoes explicit encryption for every value, as far as the engine gives back what it was
given; an output that cannot be read is invalid, and the spelling of a binary makes no difference. -/
theorem explicit_returns (setting : Setting σ) (scene : Scene σ) (hopen : c.closed = false) (value : Json)
    {options : EncryptOptions} (hvalid : options.Valid) : Returns setting scene c value options := by
  have hsealing := encryptExplicitly_sealing setting scene c value hvalid
  refine ⟨hsealing, fun b _ hsubtype later scene' => decryptExplicitly_opening later scene' hopen hsubtype, ?_⟩
  intro document b hdocument hb hsubtype hback
  have hreturned := hsealing.binary document b hdocument hb
  have hopening := decryptExplicitly_opening setting
    (c.encryptExplicitly value options setting scene).scene hopen hsubtype
  have hvalue := hopening.value _ value hback rfl
  rw [bind_apply]
  generalize c.encryptExplicitly value options setting scene = sealed at hreturned hvalue
  obtain ⟨ending, t, scene'⟩ := sealed
  obtain rfl : ending = .done b := hreturned
  exact hvalue

/-- What an engine has that keeps values: a script, the envelope it was last given, and its next output. -/
structure Keeper where
  script : Script
  kept : Document
  output : Document

/-- An output with a member that does not matter, and a binary in another spelling than the canonical. -/
def looseOutput : Document :=
  [("note", .null), ("v", .array [.array [.string "AQI=", .string "+6"]])]

/-- For any value this engine gives out the same binary, and for that binary the value that it keeps. -/
def keeping : World Keeper where
  engine
    | .createContext (.encryptValue envelope _), s => (.ok (), { s with kept := envelope, output := looseOutput })
    | .createContext (.decryptValue _), s => (.ok (), { s with output := s.kept })
    | .finish, s => (.ok s.output, s)
    | call, s =>
      let r := scripted.engine call s.script
      (r.1, { s with script := r.2 })
  service _ _ s := ⟨s, none⟩

def keepingSetting : Setting Keeper :=
  ⟨keeping, 10, 3⟩

def keepingScene : Scene Keeper :=
  ⟨0, ⟨⟨[.ready, .ready], [], 0⟩, [], []⟩⟩

def namedKey : EncryptOptions where
  algorithm := .indexed
  keyAltName := some "key"
  contentionFactor := some 0

/-- A value that has itself a member `v` comes back as it was. -/
theorem explicit_returns_keeping :
    scriptedClient.closed = false ∧ namedKey.Valid ∧
      ((scriptedClient.encryptExplicitly (.object [("v", .null)]) namedKey >>= scriptedClient.decryptExplicitly)
        keepingSetting keepingScene).ending = .done (.object [("v", .null)]) := by
  have hvalid : namedKey.Valid := EncryptOptions.valid_iff.2 rfl
  have hopen : scriptedClient.closed = false := rfl
  have hreturns := explicit_returns keepingSetting keepingScene hopen (.object [("v", .null)]) hvalid
  -- the engine is asked for the phase, and then for its output
  have hidentity := hreturns.identity looseOutput ⟨6, [1, 2]⟩ (.inl (.tail _ (.tail _ (.head _))))
    (by decide) rfl (.inl (.tail _ (.tail _ (.head _))))
  exact ⟨hopen, hvalid, hidentity⟩

end Client

end FieldSeal
