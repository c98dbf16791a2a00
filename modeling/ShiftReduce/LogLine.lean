namespace ShiftReduce

inductive Level
  | trace
  | debug
deriving DecidableEq

structure LogLine where
  level : Level
  text : String
deriving DecidableEq

def Level.label : Level → String
  | trace => "TRACE"
  | debug => "DEBUG"

def LogLine.render (l : LogLine) : String := s!"{l.level.label} {l.text}"

end ShiftReduce
