import Mathlib.Logic.Function.Iterate
import FieldSeal.Failure.Client

/-!
What wrapping does to a failure. It is wrapped at most once; afterwards it shows that it comes from the encryption
layer, and still what it is due to.
-/

namespace FieldSeal

namespace ClientError

theorem wrap_of_isEncryption {e : ClientError} (h : e.isEncryption = true) : e.wrap = e :=
  if_pos h

theorem wrap_of_not_isEncryption {e : ClientError} (h : e.isEncryption = false) : e.wrap = .encryption e :=
  if_neg (Bool.eq_false_iff.1 h)

theorem isEncryption_wrap (e : ClientError) : e.wrap.isEncryption = true := by
  cases h : e.isEncryption with
  | true => rwa [wrap_of_isEncryption h]
  | false =>
    rw [wrap_of_not_isEncryption h]
    rfl

theorem wrap_wrap (e : ClientError) : e.wrap.wrap = e.wrap :=
  wrap_of_isEncryption e.isEncryption_wrap

theorem root_wrap (e : ClientError) : e.wrap.root = e.root := by
  cases h : e.isEncryption with
  | true => rw [wrap_of_isEncryption h]
  | false =>
    rw [wrap_of_not_isEncryption h]
    rfl

/-- The induction is on the layers of wrapping. -/
theorem root_ne_encryption (e inner : ClientError) : e.root ≠ .encryption inner := by
  induction e with
  | encryption wrapped ih => exact ih
  | _ => exact nofun

/-- What the message of a failure begins with, whatever texts it holds. -/
def initial : ClientError → Char
  | .engine _ | .encryption _ => 'E'
  | .configuration _ | .invalidOutput _ => 'i'
  | .collectionInfo _ | .marking _ => 'c'
  | .keyVault _ => 'k'
  | .kms _ => 'K'
  | .credentials _ _ | .release _ _ => 'f'
  | .unsupportedPhase _ => 'u'
  | .closed => 'e'

theorem head?_append {opening : String} {first : Char} (h : opening.toList.head? = some first) (rest : String) :
    (opening ++ rest).toList.head? = some first := by
  rw [String.toList_append, List.head?_append, h]
  rfl

theorem head?_message (e : ClientError) : e.message.toList.head? = some e.initial := by
  cases e with
  | credentials provider cause => exact head?_append (head?_append (head?_append rfl _) _) _
  | release resource cause => exact head?_append (head?_append (head?_append rfl _) _) _
  | closed => rfl
  | _ => exact head?_append rfl _

theorem isEncryption_of_initial {e : ClientError} (h : e.initial = 'E') : e.isEncryption = true := by
  cases e with
  | engine error => rfl
  | encryption inner => rfl
  | _ => simp [initial] at h

/-- No other kind of failure can hold a text that gives its message the same beginning. -/
theorem lead_prefix_iff (e : ClientError) :
    encryptionLead.toList <+: e.message.toList ↔ e.isEncryption = true := by
  constructor
  · rintro ⟨rest, hrest⟩
    have hinitial := e.head?_message
    rw [← hrest] at hinitial
    exact isEncryption_of_initial (Option.some.inj hinitial).symm
  · intro h
    cases e with
    | engine error => exact ⟨error.message.toList, String.toList_append.symm⟩
    | encryption inner => exact ⟨inner.message.toList, String.toList_append.symm⟩
    | _ => cases h

/-- A failure beside what it is once it is wrapped. -/
structure WrapsPlainly (e : ClientError) : Prop where
  again : ∀ n, wrap^[n + 1] e = e.wrap
  encryption : e.wrap.isEncryption = true
  root : e.wrap.root = e.root
  bare : ∀ inner, e.root ≠ .encryption inner
  configuration : e.wrap.isConfiguration = e.isConfiguration
  message : e.wrap.message = if e.isEncryption then e.message else encryptionLead ++ e.message
  causes : e.wrap.causes = if e.isEncryption then e.causes else e.message :: e.causes
  lead : encryptionLead.toList <+: e.message.toList ↔ e.isEncryption = true

/-- Wrapping is done once at most, can be seen in the message, and hides nothing. -/
theorem wrapsPlainly (e : ClientError) : WrapsPlainly e where
  again n := by
    rw [Function.iterate_succ_apply]
    exact Function.iterate_fixed e.wrap_wrap n
  encryption := e.isEncryption_wrap
  root := e.root_wrap
  bare := e.root_ne_encryption
  configuration := by rw [isConfiguration, isConfiguration, root_wrap]
  message := by
    cases h : e.isEncryption with
    | true => rw [wrap_of_isEncryption h, if_pos rfl]
    | false =>
      rw [wrap_of_not_isEncryption h]
      rfl
  causes := by
    cases h : e.isEncryption with
    | true => rw [wrap_of_isEncryption h, if_pos rfl]
    | false =>
      rw [wrap_of_not_isEncryption h]
      rfl
  lead := e.lead_prefix_iff

end ClientError

end FieldSeal
