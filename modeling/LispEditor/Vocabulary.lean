/-!
# Vocabulary

The words of the language that are coloured on their own account.
-/

namespace LispEditor.Vocabulary

/-- The forms with rules of evaluation of their own. -/
def specialForms : List String :=
  ["def", "defn", "defn-", "defmacro", "defmulti", "defmethod", "defonce", "defprotocol",
   "defrecord", "deftype", "definterface", "defstruct", "ns", "fn", "fn*", "if", "if-let", "if-not",
   "if-some", "when", "when-let", "when-not", "when-some", "when-first", "cond", "condp", "cond->",
   "cond->>", "case", "do", "let", "letfn", "loop", "recur", "binding", "doseq", "dotimes", "for",
   "while", "try", "catch", "finally", "throw", "quote", "var", "new", "set!", "monitor-enter",
   "monitor-exit", "and", "or", "not", "->", "->>", "some->", "some->>", "as->", "doto", "declare",
   "delay", "future", "locking", "reify", "proxy", "extend-type", "extend-protocol", "comment"]

/-- The functions that every program has at hand. -/
def builtins : List String :=
  ["+", "-", "*", "/", "=", "==", "<", ">", "<=", ">=", "not=", "inc", "dec", "mod", "rem", "quot",
   "min", "max", "abs", "apply", "assoc", "assoc-in", "comp", "concat", "conj", "cons", "contains?",
   "count", "dissoc", "distinct", "drop", "filter", "first", "fnext", "get", "get-in", "hash-map",
   "identity", "into", "keep", "keys", "last", "list", "map", "mapcat", "merge", "next", "nil?",
   "nth", "partial", "partition", "println", "print", "prn", "pr-str", "str", "range", "reduce",
   "remove", "rest", "reverse", "second", "seq", "some", "sort", "sort-by", "split-at", "take",
   "update", "update-in", "vals", "vec", "vector", "zipmap", "atom", "deref", "reset!", "swap!",
   "empty?", "every?", "keyword", "symbol", "name"]

/-- The words that stand for values. -/
def constants : List String :=
  ["true", "false", "nil"]

end LispEditor.Vocabulary
