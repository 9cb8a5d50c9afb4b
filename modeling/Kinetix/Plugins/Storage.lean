import Kinetix.Foundation.Text
import Kinetix.Foundation.Words
import Kinetix.Library.Fallible
import Kinetix.Library.KeyedTable
import Kinetix.Library.Machine

/-!
# The storage of a plugin

The rows of `plugin_kv` of one plugin and the operations on them. Each operation is one transaction,
of which any statement may fail.

## Implementation notes

A value is kept as the encryption of its base64 text. The two are parameters that can be undone; the
nonce of each encryption comes from outside.
-/

namespace Kinetix.Plugins.Storage
open Checks KeyedTable Words

/-- The standard base64 engine, and `encrypt_kv` and `decrypt_kv` under the host's key. -/
structure Sealing where
  encode : List UInt8 → String
  decode : String → Option (List UInt8)
  encryptKv : List UInt8 → String → String
  decryptKv : String → Except String String
  decode_encode : ∀ value, decode (Text.trim (encode value)) = some value
  decrypt_encrypt : ∀ nonce plaintext, decryptKv (encryptKv nonce plaintext) = .ok plaintext

/-- A row of `plugin_kv`. The ciphertext is the text whose bytes the column holds. -/
structure KvRow where
  key : String
  value : String
  updatedAt : String

abbrev KvTable := Table KvRow.key

/-- Why an operation on the storage fails. -/
inductive KvError where
  | emptyPrefix
  | outsidePrefix
  | duplicateKeys
  | quotaExceeded (projected quota : Nat)
  | usageOverflow
  | decryption (message : String)
  | notBase64
  | database (message : String)

def KvError.message : KvError → String
  | .emptyPrefix => "KV snapshot prefix must not be empty"
  | .outsidePrefix => "KV snapshot entry is outside the requested prefix"
  | .duplicateKeys => "KV snapshot contains duplicate keys"
  | .quotaExceeded projected quota =>
    "storage quota exceeded: projected " ++ toString projected ++ " bytes exceeds " ++
      toString quota ++ " bytes"
  | .usageOverflow => "plugin KV usage overflow"
  | .decryption message => message
  | .notBase64 => "plugin KV plaintext not base64"
  | .database message => message

/-- What a transaction meets outside: which of its statements succeed, the time and the nonces. -/
structure TxEnv where
  begins : Bool
  selects : Bool
  deletes : Bool
  inserts : Nat → Bool
  commits : Bool
  dbError : String
  now : String
  nonce : Nat → List UInt8

/-- A statement that succeeds or not. -/
def TxEnv.statement (env : TxEnv) (succeeds : Bool) : Except KvError Unit :=
  refuseIf (succeeds = false) (.database env.dbError)

/-- `BEGIN IMMEDIATE`, the statements, and `COMMIT` or `ROLLBACK`. -/
def transact (env : TxEnv) (t : KvTable) (body : KvTable → Except KvError KvTable) :
    Except KvError Unit × KvTable :=
  if env.begins then
    match body t with
    | .ok t' => if env.commits then (.ok (), t') else (.error (.database env.dbError), t)
    | .error e => (.error e, t)
  else (.error (.database env.dbError), t)

section
variable (S : Sealing)

/-- The ciphertext of a value. -/
def Sealing.seal (nonce value : List UInt8) : String := S.encryptKv nonce (S.encode value)

/-- What is decrypted and decoded from a row. -/
def Sealing.plaintext (row : KvRow) : Except KvError (List UInt8) :=
  match S.decryptKv row.value with
  | .error message => .error (.decryption message)
  | .ok encoded => okOr (S.decode (Text.trim encoded)) .notBase64

/-- The bytes of the rows whose key is not passed over, added to those before. -/
def used (skip : String → Bool) : List KvRow → Nat → Except KvError Nat
  | [], acc => .ok acc
  | row :: rows, acc =>
    if skip row.key then used skip rows acc
    else do
      let decoded ← S.plaintext row
      let acc ← okOr (checkedAdd acc decoded.length) .usageOverflow
      used skip rows acc

/-- `kv_get`. -/
def kvGet (t : KvTable) (key : String) : Except KvError (Option (List UInt8)) :=
  match t.find key with
  | none => .ok none
  | some row => (S.plaintext row).map some

/-- `kv_put_limited`. -/
def kvPutLimited (quota : UInt64) (t : KvTable) (key : String) (value : List UInt8) (env : TxEnv) :
    Except KvError Unit × KvTable :=
  transact env t fun t => do
    env.statement env.selects
    let used ← used S (· == key) t.rows 0
    let projected ← okOr (checkedAdd used value.length) .usageOverflow
    refuseIf (quota.toNat < projected) (.quotaExceeded projected quota.toNat)
    env.statement (env.inserts 0)
    pure (t.upsert ⟨key, S.seal (env.nonce 0) value, env.now⟩)

/-- The lengths of the values of a snapshot, added to the bytes of the other rows. -/
def addLengths : List (String × List UInt8) → Nat → Except KvError Nat
  | [], acc => .ok acc
  | (_, value) :: entries, acc => do
    let acc ← okOr (checkedAdd acc value.length) .usageOverflow
    addLengths entries acc

/-- The rows of a snapshot, from the given nonce on. -/
def sealEntries (env : TxEnv) : Nat → List (String × List UInt8) → List KvRow
  | _, [] => []
  | k, (key, value) :: entries =>
    ⟨key, S.seal (env.nonce k) value, env.now⟩ :: sealEntries env (k + 1) entries

/-- The `INSERT`s of a snapshot, from the given one on. -/
def insertAll (env : TxEnv) : Nat → List KvRow → KvTable → Except KvError KvTable
  | _, [], t => .ok t
  | k, row :: rows, t => do
    env.statement (env.inserts k)
    insertAll env (k + 1) rows (t.upsert row)

/-- SQL's `substr(s, 1, n)`: it counts characters, and a NUL ends a text. -/
def sqlSubstr (s : String) (n : Nat) : String :=
  String.ofList ((s.toList.takeWhile (· ≠ Char.ofNat 0)).take n)

/-- The `WHERE` of the `DELETE`: `prefix.len()` is a number of bytes. -/
def matchesPrefix (start key : String) : Bool := sqlSubstr key start.utf8ByteSize == start

/-- `kv_replace_prefix_limited`. -/
def kvReplacePrefixLimited (quota : UInt64) (t : KvTable) (start : String)
    (entries : List (String × List UInt8)) (env : TxEnv) : Except KvError Unit × KvTable :=
  if start = "" then (.error .emptyPrefix, t)
  else if entries.any fun e => !Text.startsWith e.1 start then (.error .outsidePrefix, t)
  else if ¬ (entries.map Prod.fst).Nodup then (.error .duplicateKeys, t)
  else transact env t fun t => do
    env.statement env.selects
    let used ← used S (Text.startsWith · start) t.rows 0
    let used ← addLengths entries used
    refuseIf (quota.toNat < used) (.quotaExceeded used quota.toNat)
    env.statement env.deletes
    insertAll env 0 (sealEntries S env 0 entries) (t.deleteWhere (matchesPrefix start))

end

/-- `kv_delete`. -/
def kvDelete (t : KvTable) (key : String) (env : TxEnv) : Except KvError Unit × KvTable :=
  if env.deletes then (.ok (), t.deleteWhere (· == key)) else (.error (.database env.dbError), t)

inductive Action where
  | put (key : String) (value : List UInt8) (env : TxEnv)
  | replacePrefix (start : String) (entries : List (String × List UInt8)) (env : TxEnv)
  | delete (key : String) (env : TxEnv)

def exec (S : Sealing) (quota : UInt64) (t : KvTable) : Action → Except KvError Unit × KvTable
  | .put key value env => kvPutLimited S quota t key value env
  | .replacePrefix start entries env => kvReplacePrefixLimited S quota t start entries env
  | .delete key env => kvDelete t key env

/-- The storage of a plugin from its installation, one transaction after the other. -/
def storage (S : Sealing) (quota : UInt64) : StateMachine.Machine KvTable Action where
  start := Table.empty KvRow.key
  step t a := some (exec S quota t a).2

end Kinetix.Plugins.Storage
