/-
What can go wrong with files and archives.

A file fault arises while bytes are read or written; an archive fault while
the structure of an archive is read.  An archive fault may have a file fault
as its cause.
-/

namespace DexCensus
namespace Archive

inductive FileFault where
  | notFound
  | pastEnd
  | badChecksum
  | incompleteDeflate
  | corruptDeflate
  | other (reason : String)
  deriving DecidableEq

def FileFault.message : FileFault → String
  | .notFound => "No such file or directory (os error 2)"
  | .pastEnd => "failed to fill whole buffer"
  | .badChecksum => "Invalid checksum"
  | .incompleteDeflate => "incomplete deflate stream"
  | .corruptDeflate => "corrupt deflate stream"
  | .other reason => reason

inductive Fault where
  | tooShort
  | noEndRecord
  | badDirectoryExtent
  | badDirectoryRecord
  | badLocalRecord
  | missingEncryptionField
  | badEncryptionFieldSize
  | badEncryptionVendor
  | badEncryptionVersion
  | badEncryptionStrength
  | severalDisks
  | unknownMethod
  | encrypted
  | file (fault : FileFault)
  deriving DecidableEq

namespace Fault

def invalidLabel : String :=
  "invalid Zip archive: "

def unsupportedLabel : String :=
  "unsupported Zip archive: "

def message : Fault → String
  | .tooShort => invalidLabel ++ "Invalid zip header"
  | .noEndRecord => invalidLabel ++ "Could not find central directory end"
  | .badDirectoryExtent =>
      invalidLabel ++ "Invalid central directory size or offset"
  | .badDirectoryRecord => invalidLabel ++ "Invalid Central Directory header"
  | .badLocalRecord => invalidLabel ++ "Invalid local file header"
  | .missingEncryptionField =>
      invalidLabel ++ "AES encryption without AES extra data field"
  | .badEncryptionFieldSize =>
      unsupportedLabel ++ "AES extra data field has an unsupported length"
  | .badEncryptionVendor => invalidLabel ++ "Invalid AES vendor"
  | .badEncryptionVersion => invalidLabel ++ "Invalid AES vendor version"
  | .badEncryptionStrength => invalidLabel ++ "Invalid AES encryption strength"
  | .severalDisks =>
      unsupportedLabel ++ "Support for multi-disk files is not implemented"
  | .unknownMethod => unsupportedLabel ++ "Compression method not supported"
  | .encrypted => unsupportedLabel ++ "Password required to decrypt file"
  | .file fault => fault.message

def causes : Fault → List String
  | .file fault => [fault.message]
  | _ => []

end Fault
end Archive
end DexCensus
