import LedgerClient.Settings.Client
import LedgerClient.Transport.Pem

/-!
# Dialing

What has to be in order before a connection to a node is tried, and how a dial can fail.
-/

namespace LedgerClient.Transport

open Settings Storage Time

/-- Why a dial failed. -/
inductive DialError where
  /-- The TLS files of the endpoint cannot be used.  Trying again does not help. -/
  | tls (endpoint reason : String)
  | connect (endpoint reason : String)
  | timeout (endpoint : String) (limit : Millis)
  deriving DecidableEq, Repr

namespace DialError

/-- The wording of an error. -/
def message : DialError → String
  | tls endpoint reason => s!"TLS material for {endpoint} is unusable: {reason}"
  | connect endpoint reason => s!"failed to connect to {endpoint}: {reason}"
  | timeout endpoint limit => s!"dial to {endpoint} timed out after {spanText limit}"

/-- Trying again does not help. -/
def isPermanent : DialError → Bool
  | tls .. => true
  | _ => false

end DialError

/-- The contents of the files that TLS needs. -/
structure TlsFiles where
  authority : Bytes
  /-- The client's certificate and its key. -/
  identity : Option (Bytes × Bytes)

/-- Reads a file that TLS needs. -/
def readMaterial (fs : Files) (path : String) : Except String Bytes :=
  match fs.read path with
  | .error e => .error s!"{path}: {e.message}"
  | .ok content => .ok content

/-- Reads the files of an endpoint: the authority's certificate, then the client's certificate and
key, of which there are both or none. -/
def loadTls (fs : Files) (m : TlsMaterial) : Except String TlsFiles := do
  let authority ← readMaterial fs m.caCert
  match m.clientCert, m.clientKey with
  | some cert, some key =>
    let cert ← readMaterial fs cert
    let key ← readMaterial fs key
    .ok ⟨authority, some (cert, key)⟩
  | none, none => .ok ⟨authority, none⟩
  | _, _ => .error "client-cert and client-key must be set together"

/-- The contents and the name of the server can be used. -/
def TlsFiles.isUsable (f : TlsFiles) (server : Bytes) : Bool :=
  isAuthorityFile f.authority && isServerName server &&
    match f.identity with
    | none => true
    | some (cert, key) => isIdentity cert key

/-- The URI of a node: its address, with a scheme put in front if it has none. -/
def uri (n : Node) : String :=
  if (n.address.splitOn "://").length > 1 then n.address
  else if n.tls.isSome then "https://" ++ n.address
  else "http://" ++ n.address

/-- Checks what is needed before a connection is tried: the URI, then the files, then their
contents. -/
def prepare (fs : Files) (n : Node) : Except DialError Unit :=
  match Uri.parse? (Text.toUtf8 (uri n)) with
  | none => .error (.connect n.address "invalid URI")
  | some authority =>
    match n.tls with
    | none => .ok ()
    | some m =>
      match loadTls fs m with
      | .error reason => .error (.tls n.address reason)
      | .ok f =>
        let server := match m.serverName with
          | some name => Text.toUtf8 name
          | none => Uri.host authority
        if f.isUsable server then .ok () else .error (.tls n.address "transport error")

/-- The error of a dial to a node that cannot be reached. -/
def dialUnreachable (fs : Files) (n : Node) : DialError :=
  match prepare fs n with
  | .error e => e
  | .ok _ => .connect n.address "transport error"

end LedgerClient.Transport
