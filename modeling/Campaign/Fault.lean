import Campaign.Address
import Campaign.Value

/-!
# Faults

Everything that can end a computation before its result. A `Fault` is a cause with what is known of
it; `Fault.kind` is the class it is reported under and `Fault.message` its wording.

Two causes are no errors of the program: an interruption from outside, and a request to exit.
`Fault.isError` tells them apart. What a node or a keyring raises on its own account is `foreign`,
or `refused` where a node turns an extrinsic down. A handler takes in the classes below its own, so
`Fault.isA` goes by all classes that a fault belongs to.
-/

namespace Campaign

/-- A cause that ends a computation. -/
inductive Fault where
  -- settings and keys
  | notNumber (setting : String) (value : Value)
  | noKeyMaterial (role : String)
  | badKeyMaterial (role reason : String)
  | unknownRole (role : String)
  | unknownLevel (name : String)
  | badVariableName
  | nullCharacter
  -- submissions and barriers
  | untracked (address : String)
  | rejected (address : String) (nonce : Int) (call reason : Value)
  | barrierTimeout (role : String) (target : Int) (timeout : String)
  | unsupportedStep (step : Value)
  | negativeSleep
  | sleepLimit
  -- plans, drawings and reports
  | notMember (kind : String) (value : Value)
  | pendingStatus
  | overlap (ids : List Value)
  | negativeWinners (winners : Value)
  | sampleSize
  | fractionalCount (type : String)
  | badSeed
  | notConfigured (label : String)
  | unknownCommand (name : String)
  | unknownArgument (builder key : String)
  | lacksArguments (builder : String) (keys : List String)
  -- addresses and encodings
  | address (e : Address.Error)
  | notEncodable (type : String)
  | notByte (type : String)
  | byteRange
  -- values
  | missingKey (key : Value)
  | notIndexable (type : String)
  | wrongIndex (type : String)
  | noItem
  | noAttribute (type name : String)
  | unordered (sign left right : String)
  | noOperation (sign left right : String)
  | tooLarge
  | unhashable (type : String)
  | notIterable (type : String)
  | notUnpackable (type : String)
  | tooFew (got : Nat)
  | tooMany
  | notWhole (literal : Value)
  | tooLong (digits : Nat)
  | noWhole (type : String)
  | infinitePart
  | missingPart
  | noSeconds (type : String)
  | noMemory
  | notKey (type : String)
  | notJson (type : String)
  -- files
  | missingFile (path : String)
  | isDirectory (path : String)
  | notDirectory (path : String)
  | nameTooLong (path : String)
  -- the outside
  | usage (text : String)
  | helpShown
  | interrupted (text : String)
  | exit (text : String)
  | refused (reason : Value)
  /-- Raised elsewhere, with the classes above its own that `standardBases` does not know. -/
  | foreign (kind message : String) (bases : List String := [])

namespace Address.Error

/-- The class a fault of an address is reported under. -/
def kind : Error → String
  | .notAscii _ _ _ => "UnicodeEncodeError"
  | .tooShort => "IndexError"
  | _ => "ValueError"

/-- The wording of a fault of an address. -/
def message : Error → String
  | .empty => "Empty address provided"
  | .notAscii first last c =>
    if first = last then
      "'ascii' codec can't encode character '" ++ String.ofList (Text.numbered c) ++
        s!"' in position {first}: ordinal not in range(128)"
    else
      s!"'ascii' codec can't encode characters in position {first}-{last}: " ++
        "ordinal not in range(128)"
  | .badCharacter c => "Invalid character " ++ Text.quoted (String.singleton c)
  | .tooShort => "index out of range"
  | .reserved format => s!"{format} is a reserved SS58 format"
  | .badLength => "Invalid address length"
  | .badChecksum => "Invalid checksum"
  | .notHex position => s!"non-hexadecimal number found in fromhex() arg at position {position}"
  | .notAccountId => "Value should be 32 bytes long"

end Address.Error

namespace Fault

/-- The class a fault is reported under. -/
def kind : Fault → String
  | .notNumber _ _ | .noKeyMaterial _ | .badKeyMaterial _ _ | .unknownRole _ => "ConfigurationError"
  | .untracked _ => "NonceTrackerError"
  | .rejected _ _ _ _ => "SubmissionRejected"
  | .barrierTimeout _ _ _ => "BarrierTimeout"
  | .notConfigured _ => "PreconditionError"
  | .unknownLevel _ | .badVariableName | .nullCharacter | .negativeSleep | .notMember _ _
  | .pendingStatus | .overlap _ | .negativeWinners _ | .sampleSize | .notEncodable _ | .tooFew _
  | .tooMany | .notWhole _ | .tooLong _ | .missingPart | .byteRange => "ValueError"
  | .unsupportedStep _ | .fractionalCount _ | .badSeed | .notIndexable _ | .wrongIndex _
  | .unordered _ _ _ | .noOperation _ _ _ | .unhashable _ | .notIterable _ | .notUnpackable _
  | .noWhole _ | .noSeconds _ | .notKey _ | .notJson _ | .notByte _ | .unknownArgument _ _
  | .lacksArguments _ _ => "TypeError"
  | .sleepLimit => "RuntimeError"
  | .infinitePart | .tooLarge => "OverflowError"
  | .noMemory => "MemoryError"
  | .missingKey _ => "KeyError"
  | .noItem => "IndexError"
  | .noAttribute _ _ => "AttributeError"
  | .missingFile _ => "FileNotFoundError"
  | .isDirectory _ => "IsADirectoryError"
  | .notDirectory _ => "NotADirectoryError"
  | .nameTooLong _ => "OSError"
  | .usage _ | .helpShown | .exit _ | .unknownCommand _ => "SystemExit"
  | .interrupted _ => "KeyboardInterrupt"
  | .refused _ => "SubstrateRequestException"
  | .address e => e.kind
  | .foreign kind _ _ => kind

/-- The classes above one of the standard library, as far as handlers go by them. -/
def standardBases : String → List String
  | "UnicodeDecodeError" | "UnicodeEncodeError" | "UnicodeTranslateError" =>
    ["UnicodeError", "ValueError"]
  | "UnicodeError" | "JSONDecodeError" => ["ValueError"]
  | _ => []

/-- The classes above the one a fault is reported under. -/
def bases : Fault → List String
  | .foreign kind _ bases => standardBases kind ++ bases
  | f => standardBases f.kind

/-- Whether a fault belongs to a class, as its own or as one above. -/
def isA (f : Fault) (name : String) : Bool := (f.kind :: f.bases).contains name

/-- How the index of a row is named in a message. -/
def indexName : String → String
  | "str" => "string indices must be integers, not 'str'"
  | "bytes" => "byte indices must be integers or slices, not str"
  | type => type ++ " indices must be integers or slices, not str"

/-- Names in a sentence: with "and" before the last one, and commas if they are more than two. -/
def enumerated : List String → String
  | [] => ""
  | [a] => Text.quoted a
  | [a, b] => Text.quoted a ++ " and " ++ Text.quoted b
  | names => ", ".intercalate (names.dropLast.map Text.quoted) ++ ", and " ++
      Text.quoted (names.getLastD "")

/-- The wording of a fault. -/
def message : Fault → String
  | .notNumber setting value => setting ++ " must be a number, got " ++ value.written
  | .noKeyMaterial role => "No key material configured for " ++ role
  | .badKeyMaterial role reason => s!"Invalid key material for {role}: {reason}"
  | .unknownRole role => "Unknown account role: " ++ role
  | .unknownLevel name => s!"Level '{name}' does not exist"
  | .badVariableName => "illegal environment variable name"
  | .nullCharacter => "embedded null byte"
  | .untracked signer => s!"Nonce for {signer} was never initialized"
  | .rejected signer nonce _ reason =>
    let shown := reason.shown
    s!"Extrinsic from {signer} with nonce {nonce} rejected: {shown}"
  | .barrierTimeout role target timeout =>
    s!"{role} did not reach nonce {target} within {timeout}s"
  | .unsupportedStep step => "Unsupported step: " ++ step.written
  | .negativeSleep => "sleep length must be non-negative"
  | .sleepLimit => "sleep limit reached"
  | .notMember kind value => value.written ++ " is not a valid " ++ kind
  | .pendingStatus => "A preorder can only be set to Chosen or NotChosen"
  | .overlap ids => "Preorders both chosen and not chosen: " ++ (Value.list ids).written
  | .negativeWinners winners => "winners must be >= 0, got " ++ winners.shown
  | .sampleSize => "Sample larger than population or is negative"
  | .fractionalCount type => s!"can't multiply sequence by non-int of type '{type}'"
  | .badSeed =>
    "The only supported seed types are: None,\nint, float, str, bytes, and bytearray."
  | .notConfigured label => label ++ " Collection ID not configured"
  | .unknownCommand name => "Unknown command: " ++ name
  | .unknownArgument builder key =>
    builder ++ "() got an unexpected keyword argument " ++ Text.quoted key
  | .lacksArguments builder keys =>
    let count := keys.length
    let plural := if count = 1 then "" else "s"
    builder ++ s!"() missing {count} required positional argument{plural}: " ++ enumerated keys
  | .address e => e.message
  | .notEncodable type => "Cannot encode type \"<class '" ++ type ++ "'>\""
  | .notByte type => s!"'{type}' object cannot be interpreted as an integer"
  | .byteRange => "bytes must be in range(0, 256)"
  | .missingKey key => key.written
  | .notIndexable type => s!"'{type}' object is not subscriptable"
  | .wrongIndex type => indexName type
  | .noItem => "list index out of range"
  | .noAttribute type name => s!"'{type}' object has no attribute '{name}'"
  | .unordered sign left right =>
    s!"'{sign}' not supported between instances of '{left}' and '{right}'"
  | .noOperation sign left right =>
    s!"unsupported operand type(s) for {sign}: '{left}' and '{right}'"
  | .tooLarge => "int too large to convert to float"
  | .unhashable type => s!"unhashable type: '{type}'"
  | .notIterable type => s!"'{type}' object is not iterable"
  | .notUnpackable type => s!"cannot unpack non-iterable {type} object"
  | .tooFew got => s!"not enough values to unpack (expected 2, got {got})"
  | .tooMany => "too many values to unpack (expected 2)"
  | .notWhole literal =>
    "invalid literal for int() with base 10: " ++ String.ofList (literal.written.toList.take 200)
  | .tooLong digits =>
    "Exceeds the limit (4300 digits) for integer string conversion: " ++
      s!"value has {digits} digits; use sys.set_int_max_str_digits() to increase the limit"
  | .noWhole type =>
    s!"int() argument must be a string, a bytes-like object or a real number, not '{type}'"
  | .infinitePart => "cannot convert float infinity to integer"
  | .missingPart => "cannot convert float NaN to integer"
  | .noSeconds type => s!"float() argument must be a string or a real number, not '{type}'"
  | .noMemory => ""
  | .notKey type => "keys must be str, int, float, bool or None, not " ++ type
  | .notJson type => s!"Object of type {type} is not JSON serializable"
  | .missingFile path => "[Errno 2] No such file or directory: " ++ Text.quoted path
  | .isDirectory path => "[Errno 21] Is a directory: " ++ Text.quoted path
  | .notDirectory path => "[Errno 20] Not a directory: " ++ Text.quoted path
  | .nameTooLong path => "[Errno 36] File name too long: " ++ Text.quoted path
  | .helpShown => "0"
  | .usage text | .interrupted text | .exit text => text
  | .refused reason => reason.shown
  | .foreign _ message _ => message

/-- Whether a fault is an error of the program, and not an interruption or a request to exit. -/
def isError : Fault → Bool
  | .usage _ | .helpShown | .exit _ | .unknownCommand _ | .interrupted _ => false
  | _ => true

instance : Inhabited Fault := ⟨.sleepLimit⟩

end Fault

end Campaign
