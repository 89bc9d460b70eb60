import FieldSeal.DataKey.Options
import FieldSeal.Encryption.Options

/-!
What a context is made for.
-/

namespace FieldSeal

/-- The two requests on a single value carry it as the only member of an envelope document. -/
inductive Request where
  | encryptCommand (database : String) (command : Document)
  | decryptResponse (response : Document)
  | createDataKey (provider : String) (options : DataKeyOptions)
  | encryptValue (envelope : Document) (options : EncryptOptions)
  | decryptValue (envelope : Document)
  | rewrapDataKeys (filter : Document) (options : RewrapOptions)

def Request.kind : Request → String
  | .encryptCommand .. => "encrypt"
  | .decryptResponse .. => "decrypt"
  | .createDataKey .. => "create_data_key"
  | .encryptValue .. => "encrypt_explicit"
  | .decryptValue .. => "decrypt_explicit"
  | .rewrapDataKeys .. => "rewrap_many_data_key"

end FieldSeal
