import BlockFS.Errno

/-!
# Failures

What can go wrong on a volume.  A failure is a cause; the words that report it and the number by
which the host knows it are functions of the cause.
-/

namespace BlockFS

/-- An input or output failure: a number of the host's error table, or a cause told in words. -/
inductive IoError where
  | os (code : Int)
  | told (words : String)
  deriving DecidableEq, Repr

/-- The words of an input or output failure; a number of the host's table stands behind its text. -/
def IoError.message : IoError → String
  | .os code => s!"{Errno.text code} (os error {code})"
  | .told words => words

/-- The causes for which a call on a volume fails. -/
inductive Error where
  /-- A name does not resolve, or an inode is not allocated. -/
  | notFound
  /-- A bitmap or a directory block is full. -/
  | noSpace
  /-- Every descriptor is in use. -/
  | tooManyOpenFiles
  /-- A descriptor is unused or out of range. -/
  | invalidHandle
  | notADirectory
  | notAFile
  /-- The volume holds a record that no volume can hold. -/
  | corruptVolume
  | notMounted
  | alreadyExists
  | directoryNotEmpty
  | invalidName
  | invalidSeek
  /-- A geometry asked for cannot be laid out. -/
  | invalidGeometry
  /-- The lock around a shared volume was poisoned. -/
  | threadSync
  /-- A sector transfer failed. -/
  | device (cause : IoError)
  deriving DecidableEq, Repr

/-- The words in which a failure is reported. -/
def Error.message : Error → String
  | .notFound => "not found"
  | .noSpace => "no space left on volume"
  | .tooManyOpenFiles => "too many open files"
  | .invalidHandle => "invalid file handle"
  | .notADirectory => "not a directory"
  | .notAFile => "not a regular file"
  | .corruptVolume => "corrupt volume"
  | .notMounted => "filesystem is not mounted"
  | .alreadyExists => "already exists"
  | .directoryNotEmpty => "directory not empty"
  | .invalidName => "invalid name"
  | .invalidSeek => "invalid seek offset"
  | .invalidGeometry => "invalid volume geometry"
  | .threadSync => "filesystem lock poisoned"
  | .device cause => s!"device error: {cause.message}"

/-- The host's number for a failure; a device failure keeps the number it came with. -/
def Error.errno : Error → Int
  | .notFound => Errno.noEntry
  | .noSpace => Errno.noSpace
  | .tooManyOpenFiles => Errno.tooManyOpenFiles
  | .invalidHandle => Errno.badHandle
  | .notADirectory => Errno.notADirectory
  | .notAFile => Errno.isADirectory
  | .corruptVolume => Errno.inputOutput
  | .notMounted => Errno.noDevice
  | .alreadyExists => Errno.alreadyExists
  | .directoryNotEmpty => Errno.directoryNotEmpty
  | .invalidName => Errno.invalidArgument
  | .invalidSeek => Errno.invalidArgument
  | .invalidGeometry => Errno.invalidArgument
  | .threadSync => Errno.inputOutput
  | .device (.os code) => code
  | .device (.told _) => Errno.inputOutput

end BlockFS
