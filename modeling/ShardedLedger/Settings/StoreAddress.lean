import ShardedLedger.Http.Message
import ShardedLedger.Settings.Numeral
import ShardedLedger.Settings.Url

namespace ShardedLedger

inductive StorePlace where
  | server (host : Url.Host) (number : UInt16)
  | socket (path : List UInt8)
  deriving DecidableEq

-- What is wrong with a place where no store can be reached.
inductive StorePlaceError where
  | zeroInPath
  | pathTooLong
  | missing
  | refused
  deriving DecidableEq

def StorePlaceError.message : StorePlaceError → String
  | .zeroInPath => "paths must not contain interior null bytes"
  | .pathTooLong => "path must be shorter than SUN_LEN"
  | .missing => "No such file or directory (os error 2)"
  | .refused => "Connection refused (os error 111)"

-- The path of a socket and a zero byte behind it have this room.
def StorePlace.pathRoom : Nat := 108

-- What becomes of a connection on a machine where nothing is served. There is nothing but its
-- root directory, which is no socket.
def StorePlace.failure : StorePlace → StorePlaceError
  | .server _ _ => .refused
  | .socket path =>
      if 0 ∈ path then .zeroInPath
      else if pathRoom ≤ path.length then .pathTooLong
      else if path.all (· = 47) then .refused
      else .missing

inductive StoreDialect where
  | second
  | third
  deriving DecidableEq

-- Where a store is served, and as whom and in which way to talk to it.
structure StoreAddress where
  place : StorePlace
  database : Int
  user : Option String
  password : Option String
  dialect : StoreDialect
  deriving DecidableEq

-- Why a text is no address of a store.
inductive StoreAddressError where
  | malformed
  | noHost
  | encrypted
  | noPath
  | badDatabase
  | userNotText
  | passwordNotText
  | unknownDialect (name : String)
  deriving DecidableEq

namespace StoreAddressError

def summary : StoreAddressError → String
  | .malformed => "Redis URL did not parse"
  | .noHost => "Missing hostname"
  | .encrypted => "can't connect with TLS, the feature is not enabled"
  | .noPath => "Missing path"
  | .badDatabase => "Invalid database number"
  | .userNotText => "Username is not valid UTF-8 string"
  | .passwordNotText => "Password is not valid UTF-8 string"
  | .unknownDialect _ => "Invalid protocol version "

def detail : StoreAddressError → String
  | .unknownDialect name => ": " ++ name
  | _ => ""

def message (error : StoreAddressError) : String :=
  error.summary ++ "- InvalidClientConfig" ++ error.detail

end StoreAddressError

namespace StoreAddress

def defaultPortNumber : UInt16 := 6379

def readDatabase : List Char → Except StoreAddressError Int
  | '-' :: digits => (read 0x8000000000000000 digits).map fun number => -(number : Int)
  | '+' :: digits => (read 0x7FFFFFFFFFFFFFFF digits).map Int.ofNat
  | digits => (read 0x7FFFFFFFFFFFFFFF digits).map Int.ofNat
where
  read (greatest : Nat) (digits : List Char) : Except StoreAddressError Nat :=
    if digits.isEmpty then .error .badDatabase
    else (Numeral.readDigits greatest 0 digits).mapError fun _ => .badDatabase

-- An empty name or password is none.
def readLogin (error : StoreAddressError) (part : List Char) :
    Except StoreAddressError (Option String) :=
  if part.isEmpty then .ok none
  else
    match Utf8.decode? (FormData.unescape (Utf8.encode part)) with
    | some text => .ok (some text)
    | none => .error error

def readDialect (options : SortedMap String String) : Except StoreAddressError StoreDialect :=
  match options.get? "protocol" with
  | none | some "2" | some "resp2" => .ok .second
  | some "3" | some "resp3" => .ok .third
  | some name => .error (.unknownDialect name)

def trimSlashes (path : List Char) : List Char :=
  ((path.dropWhile (· = '/')).reverse.dropWhile (· = '/')).reverse

-- The path of a server's address is the number of a database there.
def ofServer (url : Url) (isEncrypted : Bool) : Except StoreAddressError StoreAddress :=
  match url.authority.host with
  | none => .error .noHost
  | some host =>
      if isEncrypted then .error .encrypted
      else do
        let name := trimSlashes url.path
        let database ← if name.isEmpty then .ok 0 else readDatabase name
        let user ← readLogin .userNotText url.authority.user
        let password ← readLogin .passwordNotText url.authority.password
        let dialect ← readDialect (FormData.parse (.ofList url.query))
        let place := .server host (url.authority.number.getD defaultPortNumber)
        return { place, database, user, password, dialect }

-- The letter of a drive at the end of a path is closed by a slash.
def closeDrive (path : List UInt8) : List UInt8 :=
  match path.reverse with
  | sign :: letter :: _ :: _ =>
      if (Char.ofUInt8 letter).isAlpha ∧ (sign = 58 ∨ sign = 124) then path ++ [47] else path
  | _ => path

-- A socket is a file of this machine; all else about it stands in the query.
def ofSocket (url : Url) : Except StoreAddressError StoreAddress :=
  let isHere := url.authority.host = none ∨ url.authority.host = some (.name "localhost")
  if ¬isHere ∨ url.path.head? ≠ some '/' then .error .noPath
  else do
    let options := FormData.parse (.ofList url.query)
    let database ← ((options.get? "db").map fun text => readDatabase text.toList).getD (.ok 0)
    let dialect ← readDialect options
    let place := .socket (closeDrive (FormData.unescape (Utf8.encode url.path)))
    let user := options.get? "user"
    let password := options.get? "pass"
    return { place, database, user, password, dialect }

def ofUrl (url : Url) : Except StoreAddressError StoreAddress :=
  match url.scheme with
  | "redis" => ofServer url false
  | "rediss" => ofServer url true
  | "unix" | "redis+unix" => ofSocket url
  | _ => .error .malformed

def parse (text : String) : Except StoreAddressError StoreAddress :=
  match Url.parse? text with
  | some url => ofUrl url
  | none => .error .malformed

end StoreAddress

end ShardedLedger
