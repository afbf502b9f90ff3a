import ForgeClone.Remapping

/-!
# Fetched metadata, and the errors of a clone

`Metadata` is what the block explorer returns for one contract, as far as `dump_sources`,
`update_config_by_metadata` and `parse_metadata` read it. Its `compiler_version()` and
`settings()` parse strings the explorer sent; they belong to `foundry-block-explorers`, and are
modelled as the results they return, so that a theorem about every `Metadata` covers every way
those parses can come out.

Values the code only renders (an EVM version, a bytecode hash kind, a library address) are kept
as the strings their `Display` gives. `usize` and `u64` counts are `UInt64`.

## Errors

`CloneError` names every way a modelled function can stop, with the text of the `eyre` error or of
the panic. A panic (`assert!`, `expect`, `IndexMut` on a value that is not a table) is the
constructor `panic`: it unwinds instead of returning, and no statement counts it as an `Err`.
-/

namespace ForgeClone

/-- The text `io::Error` displays for each kind. -/
def IoError.message : IoError → String
  | .notFound => "No such file or directory (os error 2)"
  | .alreadyExists => "File exists (os error 17)"
  | .notADirectory => "Not a directory (os error 20)"
  | .isADirectory => "Is a directory (os error 21)"
  | .invalidInput => "Invalid argument (os error 22)"

/-- Why a modelled function stopped. -/
inductive CloneError
  | io (e : IoError)
  | dumpFailed (e : IoError)
  | srcMissing
  | libMissing
  | destinationExists (dest : Path)
  | stripPrefix
  | settings (e : String)
  | compilerVersion (e : String)
  | stopAfter
  | cannotFindKey (key : String)
  | remappingsTxtExists
  | multipleContracts
  | contractNotFound
  | panic (text : String)
  deriving DecidableEq, Repr

/-- The text the error is reported with. -/
def CloneError.message : CloneError → String
  | .io e => e.message
  | .dumpFailed e => "failed to dump sources: " ++ e.message
  | .srcMissing => "`src` directory must exists"
  | .libMissing => "`lib` directory must exists"
  | .destinationExists dest => "destination already exists: " ++ pathString dest
  | .stripPrefix => "prefix not found"
  | .settings e => e
  | .compilerVersion e => e
  | .stopAfter => "stop_after should be None"
  | .cannotFindKey key => "cannot find the key: " ++ key
  | .remappingsTxtExists => "remappings.txt already exists, please remove it first"
  | .multipleContracts => "multiple contracts with the same name found"
  | .contractNotFound => "contract not found"
  | .panic text => text

/-- Whether the error is a panic rather than an `Err` return. -/
def CloneError.isPanic : CloneError → Bool
  | .panic _ => true
  | _ => false

theorem bind_eq_ok {ε α β : Type} {x : Except ε α} {f : α → Except ε β} {b : β} :
    x >>= f = .ok b ↔ ∃ a, x = .ok a ∧ f a = .ok b := by
  cases x <;> simp [bind, Except.bind]

theorem mapError_eq_ok {ε ε' α : Type} {x : Except ε α} {f : ε → ε'} {a : α} :
    x.mapError f = .ok a ↔ x = .ok a := by
  cases x <;> simp [Except.mapError]

theorem map_eq_ok {ε α β : Type} {x : Except ε α} {f : α → β} {b : β} :
    x.map f = .ok b ↔ ∃ a, x = .ok a ∧ f a = b := by
  cases x <;> simp [Except.map]

/-- A semantic compiler version. -/
structure Version where
  major : Nat
  minor : Nat
  patch : Nat
  deriving DecidableEq, Repr

/-- The `yulDetails` of the optimizer settings. -/
structure YulDetails where
  stackAllocation : Option Bool
  optimizerSteps : Option String
  deriving DecidableEq, Repr

/-- The optimizer `details`, each field present only when the explorer reported it. -/
structure OptimizerDetails where
  peephole : Option Bool
  inliner : Option Bool
  jumpdestRemover : Option Bool
  orderLiterals : Option Bool
  deduplicate : Option Bool
  cse : Option Bool
  constantOptimizer : Option Bool
  simpleCounterForLoopUncheckedIncrement : Option Bool
  yul : Option Bool
  yulDetails : Option YulDetails
  deriving DecidableEq, Repr

/-- The optimizer settings. -/
structure Optimizer where
  enabled : Option Bool
  runs : Option UInt64
  details : Option OptimizerDetails
  deriving DecidableEq, Repr

/-- The `metadata` settings: the bytecode-metadata knobs. -/
structure SettingsMetadata where
  cborMetadata : Option Bool
  useLiteralContent : Option Bool
  bytecodeHash : Option String
  deriving DecidableEq, Repr

/-- Library addresses: for each declaring file, its libraries' names and addresses, in the
order the map iterates them. -/
abbrev Libraries := List (String × List (String × String))

/-- The compiler settings `meta.settings()` returns, with the fields the code reads. -/
structure Settings where
  optimizer : Optimizer
  libraries : Libraries
  evmVersion : Option String
  viaIr : Option Bool
  stopAfter : Option String
  metadata : Option SettingsMetadata
  remappings : List Remapping
  deriving DecidableEq, Repr

/-- The fetched metadata of one contract. -/
structure Metadata where
  contractName : Name
  /-- The sources, under the paths the explorer keys them by, in the order the map iterates
  them. -/
  sources : List (String × String)
  /-- What `meta.compiler_version()` returns. -/
  compilerVersion : Except String Version
  /-- What `meta.settings()` returns. -/
  settings : Except String Settings

/-- Modelled from the spec: `meta.source_tree()` of foundry-block-explorers, which is not under
src/. Each source's path is joined below a directory named after the contract,
`Path::new(contract_name).join(path)`, so that an absolute path replaces the contract's name. -/
def Metadata.sourceTree (meta : Metadata) : List (String × String) :=
  meta.sources.map fun e => (joinPath meta.contractName e.1, e.2)

/-- Settings with nothing reported. -/
def bareSettings : Settings :=
  ⟨⟨none, none, none⟩, [], none, none, none, none, []⟩

end ForgeClone
