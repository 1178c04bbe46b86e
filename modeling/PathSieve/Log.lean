import PathSieve.Text

namespace PathSieve.Log

inductive Level where
  | error
  | warn
  | info
  | debug
  | trace
  deriving DecidableEq, Repr

namespace Level

def name : Level → Text
  | error => "ERROR".toList
  | warn => "WARN".toList
  | info => "INFO".toList
  | debug => "DEBUG".toList
  | trace => "TRACE".toList

def rank : Level → Nat
  | error => 1
  | warn => 2
  | info => 3
  | debug => 4
  | trace => 5

end Level

inductive Source where
  | session
  | run
  | input
  | walk
  | find
  | patterns
  | traversal
  deriving DecidableEq, Repr

namespace Source

def name : Source → Text
  | session => "pathcheck".toList
  | run => "pathcheck::driver".toList
  | input => "pathcheck::lister::stdin".toList
  | walk => "pathcheck::lister::walk".toList
  | find => "pathcheck::lister::find".toList
  | patterns => "globset".toList
  | traversal => "ignore::walk".toList

def isOwn : Source → Bool
  | patterns | traversal => false
  | _ => true

end Source

structure Entry where
  level : Level
  source : Source
  message : Text
  deriving DecidableEq, Repr

end PathSieve.Log

namespace PathSieve

structure Logged (α : Type) where
  value : α
  log : List Log.Entry
  deriving Repr

end PathSieve
