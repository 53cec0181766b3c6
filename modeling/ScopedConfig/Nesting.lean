import ScopedConfig.Agreement

namespace ScopedConfig

def enclosed (name text : Text) : Text := name ++ [' ', '{'] ++ '\n' :: (text ++ '\n' :: ['}'])

/-- What of a text stands for what of the text enclosed in a group: its lines come one later, its
paths begin with the group, and there are two more lines in all. -/
def insideGroup (name : Text) : Correspondence where
  path path path' := path' = name ++ '/' :: path
  line line line' := line' = line + 1
  last line line' := line' = line + 2

end ScopedConfig
