import Wirework.CommandLine

/-! # The program

The outermost layer: what a run comes to is decided by `CommandLine.outcome`, a function of the arguments
alone, and here that outcome is carried out. A text is printed or written to a file, a failure is reported
and gives the exit status 1, and arguments that name no run give the status 2. -/

namespace Wirework.CommandLine

def complain (status : UInt32) (message : String) : IO UInt32 := do
  IO.eprintln ("error: " ++ message)
  return status

/-- Performs the outcome of a run, and returns the exit status. -/
def Outcome.perform : Outcome → IO UInt32
  | print text => do
    IO.print text
    return 0
  | write file text => do
    try
      IO.FS.writeFile file text
      return 0
    catch e => complain 1 (toString e)
  | fail error file => do
    try
      if let some file := file then
        IO.FS.writeFile file ""
      complain 1 error.message
    catch e => complain 1 (toString e)
  | refuse error => complain 2 error.message

end Wirework.CommandLine

/-- Runs the program on the arguments of the command line. -/
def main (arguments : List String) : IO UInt32 :=
  (Wirework.CommandLine.outcome arguments).perform
