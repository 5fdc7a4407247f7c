/-! Why an archive cannot be unpacked. -/

namespace CloudProvider.Archive

/-- A number that stands in an archive, and whose it is. -/
inductive NumberField
  | checksum (path : String)
  | size (path : String)
  | fullSize (owner : String)
  | stretchStart
  | stretchLength
deriving DecidableEq, Repr

def NumberField.name : NumberField → String
  | .checksum path => "cksum for " ++ path
  | .size path => "size for " ++ path
  | .fullSize owner => "real_size for " ++ owner
  | .stretchStart => "offset from sparse header"
  | .stretchLength => "length from sparse header"

inductive Fault
  | invalidGzipHeader
  | headerFieldTooLong
  | gzipMismatch
  | endOfFile
  | corruptDeflate
  | incompleteDeflate
  | headerChecksum
  | notANumber (text : String) (field : NumberField)
  | numberNotText (text : String) (field : NumberField)
  | sizeOverflow
  | partialBlock
  | endInSkip
  | secondLongName
  | secondExtension
  | nothingDescribed
  | sparseHeader
  | partialExtension
  | stretchUnaligned
  | stretchTooEarly
  | stretchTooFar
  | stretchTooLong
  | fullSizeMismatch
  | packedSizeMismatch
deriving DecidableEq, Repr

def Fault.message : Fault → String
  | .invalidGzipHeader => "invalid gzip header"
  | .headerFieldTooLong => "gzip header field too long"
  | .gzipMismatch => "corrupt gzip stream does not have a matching checksum"
  | .endOfFile => "unexpected end of file"
  | .corruptDeflate => "corrupt deflate stream"
  | .incompleteDeflate => "incomplete deflate stream"
  | .headerChecksum => "archive header checksum mismatch"
  | .notANumber text field =>
    "numeric field was not a number: " ++ text ++ " when getting " ++ field.name
  | .numberNotText text field =>
    "numeric field did not have utf-8 text: " ++ text ++ " when getting " ++ field.name
  | .sizeOverflow => "size overflow"
  | .partialBlock => "failed to read entire block"
  | .endInSkip => "unexpected EOF during skip"
  | .secondLongName => "two long name entries describing the same member"
  | .secondExtension => "two pax extensions entries describing the same member"
  | .nothingDescribed =>
    "members found describing a future member but no future member found"
  | .sparseHeader => "sparse entry type listed but not GNU header"
  | .partialExtension => "failed to read extension"
  | .stretchUnaligned => "previous block in sparse file was not aligned to 512-byte boundary"
  | .stretchTooEarly => "out of order or overlapping sparse blocks"
  | .stretchTooFar => "more bytes listed in sparse file than u64 can hold"
  | .stretchTooLong => "sparse file consumed more data than the header listed"
  | .fullSizeMismatch => "mismatch in sparse file chunks and size in header"
  | .packedSizeMismatch => "mismatch in sparse file chunks and entry size in header"

end CloudProvider.Archive
