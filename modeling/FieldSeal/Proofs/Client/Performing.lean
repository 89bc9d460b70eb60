import FieldSeal.Proofs.Client.Admission
import FieldSeal.Proofs.Client.Closing
import FieldSeal.Proofs.Client.Scripted

/-!
Operations as runs: each that makes a context keeps to the protocol, from the creation of the context to its release.
-/

namespace FieldSeal

open FieldSeal.Action FieldSeal.Trace

namespace Client

variable {σ : Type} {setting : Setting σ}

/-- Runs of an operation: over before a context is asked for, or an execution whose ending is turned into
that of the operation. -/
inductive Performed (setting : Setting σ) (c : Client) (op : Operation) (request : Request) :
    List Event → Ending ClientError op.Answer → Prop where
  | early {ending : Ending ClientError op.Answer} (hexpired : ending ≠ .expired)
      (hunfinished : ending ≠ .unfinished) : Performed setting c op request [] ending
  | executed {t : List Event} {ending : Ending ClientError Document}
      (h : Executed setting c request op.database t ending) :
      Performed setting c op request t (op.conclude ending)

theorem yields_perform (c : Client) (op : Operation) {request : Request}
    (hrequest : op.request? = some request) :
    Yields setting (c.perform op) (Performed setting c op request) := by
  intro scene
  by_cases hadmits : c.Admits op
  · obtain ⟨-, hvalid, hbypass⟩ := hadmits
    obtain ⟨final, hexecuted, hending⟩ := perform_executed setting scene op hrequest hvalid hbypass
    rw [hending]
    exact .executed hexecuted
  · have hop : op ≠ .close := by
      rintro rfl
      cases hrequest
    obtain ⟨ending, hperform, hdeclined⟩ := perform_of_not_admits setting scene hop hadmits
    rw [hperform]
    exact .early hdeclined.ne_expired hdeclined.ne_unfinished

theorem Performed.protocol {c : Client} {op : Operation} {request asked : Request} {t before after : List Event}
    {ending : Ending ClientError op.Answer} (h : Performed setting c op request t ending)
    (ht : t = before ++ .engine (.createContext asked) (.ok ()) :: after) :
    asked = request ∧ before = [] ∧ ∃ calls final,
      Protocol setting c op.database setting.fuel calls final ∧ after = calls ++ released final ∧
        ending = op.conclude final := by
  cases h with
  | early hexpired hunfinished => exact absurd ht (by simp)
  | @executed t final h =>
    cases h with
    | closed hclosed => exact absurd ht (by simp)
    | rejected hopen e =>
      obtain ⟨-, he, -⟩ := singleton_eq_split ht
      cases he
    | @driven calls _ hopen hrun =>
      have hprotocol := (yields_drive c op.database).of_hasRun hrun
      rcases cons_eq_split ht with ⟨hbefore, he, hafter⟩ | ⟨rest, -, hrest⟩
      · cases he
        exact ⟨rfl, hbefore, calls, final, hprotocol, hafter, rfl⟩
      · -- no second context is made before the release of the first
        rcases append_eq_split hrest with ⟨rest, hcalls, -⟩ | ⟨rest, hreleased, -⟩
        · have hcreate := hprotocol.ofContext (.engine (.createContext asked) (.ok ())) (by simp [hcalls])
          cases hcreate
        · have hcreate : Event.engine (.createContext asked) (.ok ()) ∈ released final := by simp [hreleased]
          cases final <;> simp [released] at hcreate

/-- Once its context is made, an operation makes the calls of the protocol and no others, then releases the
context, and it ends as the protocol does. -/
theorem perform_follows_protocol (setting : Setting σ) (scene : Scene σ) (c : Client) (op : Operation)
    {asked : Request} {before after : List Event}
    (h : (c.perform op setting scene).trace = before ++ .engine (.createContext asked) (.ok ()) :: after) :
    op.request? = some asked ∧ before = [] ∧ ∃ calls final,
      Protocol setting c op.database setting.fuel calls final ∧ after = calls ++ released final ∧
        (c.perform op setting scene).ending = op.conclude final := by
  cases hrequest : op.request? with
  | some request =>
    obtain ⟨rfl, hprotocol⟩ := (yields_perform c op hrequest scene).protocol h
    exact ⟨rfl, hprotocol⟩
  | none =>
    cases op with
    | close =>
      have hclosing : CallsOf Event.ofClosing (c.perform .close setting scene).trace _ := yields_close c scene
      rw [h] at hclosing
      have hcreate := hclosing.only (.engine (.createContext asked) (.ok ())) (by simp)
      cases hcreate
    | _ => cases hrequest

/-- The calls of a decryption that fetches one key document and serves one decryptor. -/
def scriptedCalls : List Event :=
  [.engine .phase (.ok .needsKeys), .engine .operation (.ok []), .service (.findKeys []) (some (.ok [[]])),
    .engine (.addResult []) (.ok ()), .engine .completeOperation (.ok ()),
    .engine .phase (.ok .needsDecryption), .engine .nextDecryptor (.ok (some scriptedRequest)),
    .service (.decryptKey scriptedRequest) (some (.ok ())), .engine .nextDecryptor (.ok none),
    .engine .completeDecryptors (.ok ()), .engine .phase (.ok .ready), .engine .finish (.ok []),
    .engine .release ()]

theorem perform_follows_protocol_scripted :
    ∃ calls final, Protocol scriptedSetting scriptedClient none 3 calls final ∧
      scriptedCalls = calls ++ released final ∧
        Ending.done [] = Operation.conclude (.decrypt []) final := by
  have htrace : (scriptedClient.perform (.decrypt []) scriptedSetting
      ⟨0, ⟨[.needsKeys, .needsDecryption, .ready], [scriptedRequest], 0⟩⟩).trace =
        [] ++ .engine (.createContext (.decryptResponse [])) (.ok ()) :: scriptedCalls := by
    rfl
  exact (perform_follows_protocol _ _ _ _ htrace).2.2

end Client

end FieldSeal
