namespace GridSnapshot

inductive FileFault where
  | missing
  /-- A file stands where the path needs a directory. -/
  | blocked
  | directory
  /-- A path, or a name in it, that is too long or has a null character. -/
  | unusable
  | encoding
  deriving DecidableEq, Repr

end GridSnapshot
