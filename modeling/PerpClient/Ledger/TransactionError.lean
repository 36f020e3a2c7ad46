import PerpClient.Json.Reading
/-!
# Why the ledger rejects a transaction

A rejected transaction carries a `TransactionError`; when one of its instructions failed, that
error names the instruction and carries an `InstructionError`. Each has the text the ledger
shows for it (`message`), and each is read from the ledger's JSON, where a variant without
content is its name and one with content is an object with the name as its one field:
`"AccountInUse"`, `{"InstructionError": [0, {"Custom": 6001}]}`,
`{"InsufficientFundsForRent": {"account_index": 3}}`.

* A custom program error shows its code in hexadecimal: `custom program error: 0x1771`.
* A name that is no variant is refused with the list of all variants, in their order.
-/

namespace PerpClient

open Json

/-! ## Instruction errors -/

/-- Why an instruction failed. -/
inductive InstructionError where
  | genericError
  | invalidArgument
  | invalidInstructionData
  | invalidAccountData
  | accountDataTooSmall
  | insufficientFunds
  | incorrectProgramId
  | missingRequiredSignature
  | accountAlreadyInitialized
  | uninitializedAccount
  | unbalancedInstruction
  | modifiedProgramId
  | externalAccountLamportSpend
  | externalAccountDataModified
  | readonlyLamportChange
  | readonlyDataModified
  | duplicateAccountIndex
  | executableModified
  | rentEpochModified
  | notEnoughAccountKeys
  | accountDataSizeChanged
  | accountNotExecutable
  | accountBorrowFailed
  | accountBorrowOutstanding
  | duplicateAccountOutOfSync
  /-- An error code of the program itself. -/
  | custom (code : UInt32)
  | invalidError
  | executableDataModified
  | executableLamportChange
  | executableAccountNotRentExempt
  | unsupportedProgramId
  | callDepth
  | missingAccount
  | reentrancyNotAllowed
  | maxSeedLengthExceeded
  | invalidSeeds
  | invalidRealloc
  | computationalBudgetExceeded
  | privilegeEscalation
  | programEnvironmentSetupFailure
  | programFailedToComplete
  | programFailedToCompile
  | immutable
  | incorrectAuthority
  /-- Account data that could not be read or written, with the reason. -/
  | borshIoError (text : String)
  | accountNotRentExempt
  | invalidAccountOwner
  | arithmeticOverflow
  | unsupportedSysvar
  | illegalOwner
  | maxAccountsDataAllocationsExceeded
  | maxAccountsExceeded
  | maxInstructionTraceLengthExceeded
  | builtinProgramsMustConsumeComputeUnits
  deriving DecidableEq, Inhabited

namespace InstructionError

/-- The names of all variants, in their order. -/
def variantNames : List String :=
  ["GenericError", "InvalidArgument", "InvalidInstructionData", "InvalidAccountData",
    "AccountDataTooSmall", "InsufficientFunds", "IncorrectProgramId", "MissingRequiredSignature",
    "AccountAlreadyInitialized", "UninitializedAccount", "UnbalancedInstruction",
    "ModifiedProgramId", "ExternalAccountLamportSpend", "ExternalAccountDataModified",
    "ReadonlyLamportChange", "ReadonlyDataModified", "DuplicateAccountIndex",
    "ExecutableModified", "RentEpochModified", "NotEnoughAccountKeys", "AccountDataSizeChanged",
    "AccountNotExecutable", "AccountBorrowFailed", "AccountBorrowOutstanding",
    "DuplicateAccountOutOfSync", "Custom", "InvalidError", "ExecutableDataModified",
    "ExecutableLamportChange", "ExecutableAccountNotRentExempt", "UnsupportedProgramId",
    "CallDepth", "MissingAccount", "ReentrancyNotAllowed", "MaxSeedLengthExceeded",
    "InvalidSeeds", "InvalidRealloc", "ComputationalBudgetExceeded", "PrivilegeEscalation",
    "ProgramEnvironmentSetupFailure", "ProgramFailedToComplete", "ProgramFailedToCompile",
    "Immutable", "IncorrectAuthority", "BorshIoError", "AccountNotRentExempt",
    "InvalidAccountOwner", "ArithmeticOverflow", "UnsupportedSysvar", "IllegalOwner",
    "MaxAccountsDataAllocationsExceeded", "MaxAccountsExceeded",
    "MaxInstructionTraceLengthExceeded", "BuiltinProgramsMustConsumeComputeUnits"]

/-- The variants without content. -/
def plain : List InstructionError :=
  [.genericError, .invalidArgument, .invalidInstructionData, .invalidAccountData,
    .accountDataTooSmall, .insufficientFunds, .incorrectProgramId, .missingRequiredSignature,
    .accountAlreadyInitialized, .uninitializedAccount, .unbalancedInstruction,
    .modifiedProgramId, .externalAccountLamportSpend, .externalAccountDataModified,
    .readonlyLamportChange, .readonlyDataModified, .duplicateAccountIndex, .executableModified,
    .rentEpochModified, .notEnoughAccountKeys, .accountDataSizeChanged, .accountNotExecutable,
    .accountBorrowFailed, .accountBorrowOutstanding, .duplicateAccountOutOfSync, .invalidError,
    .executableDataModified, .executableLamportChange, .executableAccountNotRentExempt,
    .unsupportedProgramId, .callDepth, .missingAccount, .reentrancyNotAllowed,
    .maxSeedLengthExceeded, .invalidSeeds, .invalidRealloc, .computationalBudgetExceeded,
    .privilegeEscalation, .programEnvironmentSetupFailure, .programFailedToComplete,
    .programFailedToCompile, .immutable, .incorrectAuthority, .accountNotRentExempt,
    .invalidAccountOwner, .arithmeticOverflow, .unsupportedSysvar, .illegalOwner,
    .maxAccountsDataAllocationsExceeded, .maxAccountsExceeded,
    .maxInstructionTraceLengthExceeded, .builtinProgramsMustConsumeComputeUnits]

/-- The name of the variant. -/
def name : InstructionError → String
  | .genericError => "GenericError"
  | .invalidArgument => "InvalidArgument"
  | .invalidInstructionData => "InvalidInstructionData"
  | .invalidAccountData => "InvalidAccountData"
  | .accountDataTooSmall => "AccountDataTooSmall"
  | .insufficientFunds => "InsufficientFunds"
  | .incorrectProgramId => "IncorrectProgramId"
  | .missingRequiredSignature => "MissingRequiredSignature"
  | .accountAlreadyInitialized => "AccountAlreadyInitialized"
  | .uninitializedAccount => "UninitializedAccount"
  | .unbalancedInstruction => "UnbalancedInstruction"
  | .modifiedProgramId => "ModifiedProgramId"
  | .externalAccountLamportSpend => "ExternalAccountLamportSpend"
  | .externalAccountDataModified => "ExternalAccountDataModified"
  | .readonlyLamportChange => "ReadonlyLamportChange"
  | .readonlyDataModified => "ReadonlyDataModified"
  | .duplicateAccountIndex => "DuplicateAccountIndex"
  | .executableModified => "ExecutableModified"
  | .rentEpochModified => "RentEpochModified"
  | .notEnoughAccountKeys => "NotEnoughAccountKeys"
  | .accountDataSizeChanged => "AccountDataSizeChanged"
  | .accountNotExecutable => "AccountNotExecutable"
  | .accountBorrowFailed => "AccountBorrowFailed"
  | .accountBorrowOutstanding => "AccountBorrowOutstanding"
  | .duplicateAccountOutOfSync => "DuplicateAccountOutOfSync"
  | .custom _ => "Custom"
  | .invalidError => "InvalidError"
  | .executableDataModified => "ExecutableDataModified"
  | .executableLamportChange => "ExecutableLamportChange"
  | .executableAccountNotRentExempt => "ExecutableAccountNotRentExempt"
  | .unsupportedProgramId => "UnsupportedProgramId"
  | .callDepth => "CallDepth"
  | .missingAccount => "MissingAccount"
  | .reentrancyNotAllowed => "ReentrancyNotAllowed"
  | .maxSeedLengthExceeded => "MaxSeedLengthExceeded"
  | .invalidSeeds => "InvalidSeeds"
  | .invalidRealloc => "InvalidRealloc"
  | .computationalBudgetExceeded => "ComputationalBudgetExceeded"
  | .privilegeEscalation => "PrivilegeEscalation"
  | .programEnvironmentSetupFailure => "ProgramEnvironmentSetupFailure"
  | .programFailedToComplete => "ProgramFailedToComplete"
  | .programFailedToCompile => "ProgramFailedToCompile"
  | .immutable => "Immutable"
  | .incorrectAuthority => "IncorrectAuthority"
  | .borshIoError _ => "BorshIoError"
  | .accountNotRentExempt => "AccountNotRentExempt"
  | .invalidAccountOwner => "InvalidAccountOwner"
  | .arithmeticOverflow => "ArithmeticOverflow"
  | .unsupportedSysvar => "UnsupportedSysvar"
  | .illegalOwner => "IllegalOwner"
  | .maxAccountsDataAllocationsExceeded => "MaxAccountsDataAllocationsExceeded"
  | .maxAccountsExceeded => "MaxAccountsExceeded"
  | .maxInstructionTraceLengthExceeded => "MaxInstructionTraceLengthExceeded"
  | .builtinProgramsMustConsumeComputeUnits => "BuiltinProgramsMustConsumeComputeUnits"

/-- The text the ledger shows for the error. -/
def message : InstructionError → String
  | .genericError => "generic instruction error"
  | .invalidArgument => "invalid program argument"
  | .invalidInstructionData => "invalid instruction data"
  | .invalidAccountData => "invalid account data for instruction"
  | .accountDataTooSmall => "account data too small for instruction"
  | .insufficientFunds => "insufficient funds for instruction"
  | .incorrectProgramId => "incorrect program id for instruction"
  | .missingRequiredSignature => "missing required signature for instruction"
  | .accountAlreadyInitialized => "instruction requires an uninitialized account"
  | .uninitializedAccount => "instruction requires an initialized account"
  | .unbalancedInstruction => "sum of account balances before and after instruction do not match"
  | .modifiedProgramId => "instruction illegally modified the program id of an account"
  | .externalAccountLamportSpend => "instruction spent from the balance of an account it does not own"
  | .externalAccountDataModified => "instruction modified data of an account it does not own"
  | .readonlyLamportChange => "instruction changed the balance of a read-only account"
  | .readonlyDataModified => "instruction modified data of a read-only account"
  | .duplicateAccountIndex => "instruction contains duplicate accounts"
  | .executableModified => "instruction changed executable bit of an account"
  | .rentEpochModified => "instruction modified rent epoch of an account"
  | .notEnoughAccountKeys => "insufficient account keys for instruction"
  | .accountDataSizeChanged => "program other than the account's owner changed the size of the account data"
  | .accountNotExecutable => "instruction expected an executable account"
  | .accountBorrowFailed => "instruction tries to borrow reference for an account which is already borrowed"
  | .accountBorrowOutstanding => "instruction left account with an outstanding borrowed reference"
  | .duplicateAccountOutOfSync => "instruction modifications of multiply-passed account differ"
  | .custom code => "custom program error: 0x" ++ String.ofList (Nat.toDigits 16 code.toNat)
  | .invalidError => "program returned invalid error code"
  | .executableDataModified => "instruction changed executable accounts data"
  | .executableLamportChange => "instruction changed the balance of an executable account"
  | .executableAccountNotRentExempt => "executable accounts must be rent exempt"
  | .unsupportedProgramId => "Unsupported program id"
  | .callDepth => "Cross-program invocation call depth too deep"
  | .missingAccount => "An account required by the instruction is missing"
  | .reentrancyNotAllowed => "Cross-program invocation reentrancy not allowed for this instruction"
  | .maxSeedLengthExceeded => "Length of the seed is too long for address generation"
  | .invalidSeeds => "Provided seeds do not result in a valid address"
  | .invalidRealloc => "Failed to reallocate account data"
  | .computationalBudgetExceeded => "Computational budget exceeded"
  | .privilegeEscalation => "Cross-program invocation with unauthorized signer or writable account"
  | .programEnvironmentSetupFailure => "Failed to create program execution environment"
  | .programFailedToComplete => "Program failed to complete"
  | .programFailedToCompile => "Program failed to compile"
  | .immutable => "Account is immutable"
  | .incorrectAuthority => "Incorrect authority provided"
  | .borshIoError text => "Failed to serialize or deserialize account data: " ++ text
  | .accountNotRentExempt => "An account does not have enough lamports to be rent-exempt"
  | .invalidAccountOwner => "Invalid account owner"
  | .arithmeticOverflow => "Program arithmetic overflowed"
  | .unsupportedSysvar => "Unsupported sysvar"
  | .illegalOwner => "Provided owner is not allowed"
  | .maxAccountsDataAllocationsExceeded => "Accounts data allocations exceeded the maximum allowed per transaction"
  | .maxAccountsExceeded => "Max accounts exceeded"
  | .maxInstructionTraceLengthExceeded => "Max instruction trace length exceeded"
  | .builtinProgramsMustConsumeComputeUnits => "Builtin programs must consume compute units"

end InstructionError

/-! ## Transaction errors -/

/-- Why the ledger rejected a transaction. -/
inductive TransactionError where
  | accountInUse
  | accountLoadedTwice
  | accountNotFound
  | programAccountNotFound
  | insufficientFundsForFee
  | invalidAccountForFee
  | alreadyProcessed
  | blockhashNotFound
  /-- The instruction at this position failed. -/
  | instructionError (index : UInt8) (error : InstructionError)
  | callChainTooDeep
  | missingSignatureForFee
  | invalidAccountIndex
  | signatureFailure
  | invalidProgramForExecution
  | sanitizeFailure
  | clusterMaintenance
  | accountBorrowOutstanding
  | wouldExceedMaxBlockCostLimit
  | unsupportedVersion
  | invalidWritableAccount
  | wouldExceedMaxAccountCostLimit
  | wouldExceedAccountDataBlockLimit
  | tooManyAccountLocks
  | addressLookupTableNotFound
  | invalidAddressLookupTableOwner
  | invalidAddressLookupTableData
  | invalidAddressLookupTableIndex
  | invalidRentPayingAccount
  | wouldExceedMaxVoteCostLimit
  | wouldExceedAccountDataTotalLimit
  /-- The instruction at this position appears twice where that is not allowed. -/
  | duplicateInstruction (index : UInt8)
  /-- The account at this position would be left without rent. -/
  | insufficientFundsForRent (accountIndex : UInt8)
  | maxLoadedAccountsDataSizeExceeded
  | invalidLoadedAccountsDataSizeLimit
  | resanitizationNeeded
  /-- The program at this account position may not run for now. -/
  | programExecutionTemporarilyRestricted (accountIndex : UInt8)
  | unbalancedTransaction
  | programCacheHitMaxLimit
  deriving DecidableEq, Inhabited

namespace TransactionError

/-- The names of all variants, in their order. -/
def variantNames : List String :=
  ["AccountInUse", "AccountLoadedTwice", "AccountNotFound", "ProgramAccountNotFound",
    "InsufficientFundsForFee", "InvalidAccountForFee", "AlreadyProcessed", "BlockhashNotFound",
    "InstructionError", "CallChainTooDeep", "MissingSignatureForFee", "InvalidAccountIndex",
    "SignatureFailure", "InvalidProgramForExecution", "SanitizeFailure", "ClusterMaintenance",
    "AccountBorrowOutstanding", "WouldExceedMaxBlockCostLimit", "UnsupportedVersion",
    "InvalidWritableAccount", "WouldExceedMaxAccountCostLimit",
    "WouldExceedAccountDataBlockLimit", "TooManyAccountLocks", "AddressLookupTableNotFound",
    "InvalidAddressLookupTableOwner", "InvalidAddressLookupTableData",
    "InvalidAddressLookupTableIndex", "InvalidRentPayingAccount", "WouldExceedMaxVoteCostLimit",
    "WouldExceedAccountDataTotalLimit", "DuplicateInstruction", "InsufficientFundsForRent",
    "MaxLoadedAccountsDataSizeExceeded", "InvalidLoadedAccountsDataSizeLimit",
    "ResanitizationNeeded", "ProgramExecutionTemporarilyRestricted", "UnbalancedTransaction",
    "ProgramCacheHitMaxLimit"]

/-- The variants without content. -/
def plain : List TransactionError :=
  [.accountInUse, .accountLoadedTwice, .accountNotFound, .programAccountNotFound,
    .insufficientFundsForFee, .invalidAccountForFee, .alreadyProcessed, .blockhashNotFound,
    .callChainTooDeep, .missingSignatureForFee, .invalidAccountIndex, .signatureFailure,
    .invalidProgramForExecution, .sanitizeFailure, .clusterMaintenance,
    .accountBorrowOutstanding, .wouldExceedMaxBlockCostLimit, .unsupportedVersion,
    .invalidWritableAccount, .wouldExceedMaxAccountCostLimit, .wouldExceedAccountDataBlockLimit,
    .tooManyAccountLocks, .addressLookupTableNotFound, .invalidAddressLookupTableOwner,
    .invalidAddressLookupTableData, .invalidAddressLookupTableIndex, .invalidRentPayingAccount,
    .wouldExceedMaxVoteCostLimit, .wouldExceedAccountDataTotalLimit,
    .maxLoadedAccountsDataSizeExceeded, .invalidLoadedAccountsDataSizeLimit,
    .resanitizationNeeded, .unbalancedTransaction, .programCacheHitMaxLimit]

/-- The name of the variant. -/
def name : TransactionError → String
  | .accountInUse => "AccountInUse"
  | .accountLoadedTwice => "AccountLoadedTwice"
  | .accountNotFound => "AccountNotFound"
  | .programAccountNotFound => "ProgramAccountNotFound"
  | .insufficientFundsForFee => "InsufficientFundsForFee"
  | .invalidAccountForFee => "InvalidAccountForFee"
  | .alreadyProcessed => "AlreadyProcessed"
  | .blockhashNotFound => "BlockhashNotFound"
  | .instructionError _ _ => "InstructionError"
  | .callChainTooDeep => "CallChainTooDeep"
  | .missingSignatureForFee => "MissingSignatureForFee"
  | .invalidAccountIndex => "InvalidAccountIndex"
  | .signatureFailure => "SignatureFailure"
  | .invalidProgramForExecution => "InvalidProgramForExecution"
  | .sanitizeFailure => "SanitizeFailure"
  | .clusterMaintenance => "ClusterMaintenance"
  | .accountBorrowOutstanding => "AccountBorrowOutstanding"
  | .wouldExceedMaxBlockCostLimit => "WouldExceedMaxBlockCostLimit"
  | .unsupportedVersion => "UnsupportedVersion"
  | .invalidWritableAccount => "InvalidWritableAccount"
  | .wouldExceedMaxAccountCostLimit => "WouldExceedMaxAccountCostLimit"
  | .wouldExceedAccountDataBlockLimit => "WouldExceedAccountDataBlockLimit"
  | .tooManyAccountLocks => "TooManyAccountLocks"
  | .addressLookupTableNotFound => "AddressLookupTableNotFound"
  | .invalidAddressLookupTableOwner => "InvalidAddressLookupTableOwner"
  | .invalidAddressLookupTableData => "InvalidAddressLookupTableData"
  | .invalidAddressLookupTableIndex => "InvalidAddressLookupTableIndex"
  | .invalidRentPayingAccount => "InvalidRentPayingAccount"
  | .wouldExceedMaxVoteCostLimit => "WouldExceedMaxVoteCostLimit"
  | .wouldExceedAccountDataTotalLimit => "WouldExceedAccountDataTotalLimit"
  | .duplicateInstruction _ => "DuplicateInstruction"
  | .insufficientFundsForRent _ => "InsufficientFundsForRent"
  | .maxLoadedAccountsDataSizeExceeded => "MaxLoadedAccountsDataSizeExceeded"
  | .invalidLoadedAccountsDataSizeLimit => "InvalidLoadedAccountsDataSizeLimit"
  | .resanitizationNeeded => "ResanitizationNeeded"
  | .programExecutionTemporarilyRestricted _ => "ProgramExecutionTemporarilyRestricted"
  | .unbalancedTransaction => "UnbalancedTransaction"
  | .programCacheHitMaxLimit => "ProgramCacheHitMaxLimit"

/-- The text the ledger shows for the error. -/
def message : TransactionError → String
  | .accountInUse => "Account in use"
  | .accountLoadedTwice => "Account loaded twice"
  | .accountNotFound => "Attempt to debit an account but found no record of a prior credit."
  | .programAccountNotFound => "Attempt to load a program that does not exist"
  | .insufficientFundsForFee => "Insufficient funds for fee"
  | .invalidAccountForFee => "This account may not be used to pay transaction fees"
  | .alreadyProcessed => "This transaction has already been processed"
  | .blockhashNotFound => "Blockhash not found"
  | .instructionError i e => s!"Error processing Instruction {i}: " ++ e.message
  | .callChainTooDeep => "Loader call chain is too deep"
  | .missingSignatureForFee => "Transaction requires a fee but has no signature present"
  | .invalidAccountIndex => "Transaction contains an invalid account reference"
  | .signatureFailure => "Transaction did not pass signature verification"
  | .invalidProgramForExecution => "This program may not be used for executing instructions"
  | .sanitizeFailure => "Transaction failed to sanitize accounts offsets correctly"
  | .clusterMaintenance => "Transactions are currently disabled due to cluster maintenance"
  | .accountBorrowOutstanding => "Transaction processing left an account with an outstanding borrowed reference"
  | .wouldExceedMaxBlockCostLimit => "Transaction would exceed max Block Cost Limit"
  | .unsupportedVersion => "Transaction version is unsupported"
  | .invalidWritableAccount => "Transaction loads a writable account that cannot be written"
  | .wouldExceedMaxAccountCostLimit => "Transaction would exceed max account limit within the block"
  | .wouldExceedAccountDataBlockLimit => "Transaction would exceed account data limit within the block"
  | .tooManyAccountLocks => "Transaction locked too many accounts"
  | .addressLookupTableNotFound => "Transaction loads an address table account that doesn't exist"
  | .invalidAddressLookupTableOwner => "Transaction loads an address table account with an invalid owner"
  | .invalidAddressLookupTableData => "Transaction loads an address table account with invalid data"
  | .invalidAddressLookupTableIndex => "Transaction address table lookup uses an invalid index"
  | .invalidRentPayingAccount => "Transaction leaves an account with a lower balance than rent-exempt minimum"
  | .wouldExceedMaxVoteCostLimit => "Transaction would exceed max Vote Cost Limit"
  | .wouldExceedAccountDataTotalLimit => "Transaction would exceed total account data limit"
  | .duplicateInstruction i =>
    s!"Transaction contains a duplicate instruction ({i}) that is not allowed"
  | .insufficientFundsForRent i =>
    s!"Transaction results in an account ({i}) with insufficient funds for rent"
  | .maxLoadedAccountsDataSizeExceeded => "Transaction exceeded max loaded accounts data size cap"
  | .invalidLoadedAccountsDataSizeLimit => "LoadedAccountsDataSizeLimit set for transaction must be greater than 0."
  | .resanitizationNeeded => "ResanitizationNeeded"
  | .programExecutionTemporarilyRestricted i =>
    s!"Execution of the program referenced by account at index {i} is temporarily restricted."
  | .unbalancedTransaction => "Sum of account balances before and after transaction do not match"
  | .programCacheHitMaxLimit => "Program cache hit max limit"

end TransactionError
/-! ## Reading from JSON -/

namespace Json.Reading

/-- The complaint about content a variant of that kind cannot have. -/
def contentMismatch (found expected : String) : String :=
  s!"invalid type: {found}, expected {expected}"

/-- The content of a variant without content: none, or `null`. -/
def unitContent {α : Type} (a : α) : Option Value → Reading α
  | none => .ok a
  | some .null => .ok a
  | some v => .error (invalidType v "unit")

/-- The content of a variant with one value. -/
def newtypeContent {α : Type} (r : Value → Reading α) : Option Value → Reading α
  | none => .error (contentMismatch "unit variant" "newtype variant")
  | some v => r v

/-- The content of a variant with two values. -/
def pairContent {α β : Type} (what : String) (ra : Value → Reading α) (rb : Value → Reading β) :
    Option Value → Reading (α × β)
  | none => .error (contentMismatch "unit variant" "tuple variant")
  | some (.arr []) => .error (contentMismatch "unit value" what)
  | some (.arr [a]) => do
    let _ ← ra a
    .error s!"invalid length 1, expected {what}"
  | some (.arr [a, b]) => do pure (← ra a, ← rb b)
  | some (.arr (a :: b :: rest)) => do
    let _ ← ra a
    let _ ← rb b
    .error s!"invalid length {rest.length + 2}, expected fewer elements in array"
  | some v => .error (invalidType v "tuple variant")

/-- The content of a variant that is a record with the one field `account_index`. -/
def accountIndexContent (what : String) : Option Value → Reading UInt8
  | none => .error (contentMismatch "unit variant" "struct variant")
  | some v => do
    let fs ← record what [required "account_index" u8] v
    get fs "account_index" u8

end Json.Reading

open Json.Reading

/-- Reads an instruction error. -/
def InstructionError.read (v : Value) : Reading InstructionError := do
  let (tag, content) ← variant v
  match tag with
  | "Custom" => .custom <$> newtypeContent u32 content
  | "BorshIoError" => .borshIoError <$> newtypeContent string content
  | _ =>
    match InstructionError.plain.find? (·.name = tag) with
    | some e => unitContent e content
    | none => .error (unknownVariant tag InstructionError.variantNames)

/-- Reads a transaction error. -/
def TransactionError.read (v : Value) : Reading TransactionError := do
  let (tag, content) ← variant v
  match tag with
  | "InstructionError" =>
    let (i, e) ← pairContent "tuple variant TransactionError::InstructionError with 2 elements"
      u8 InstructionError.read content
    pure (.instructionError i e)
  | "DuplicateInstruction" => .duplicateInstruction <$> newtypeContent u8 content
  | "InsufficientFundsForRent" =>
    .insufficientFundsForRent <$>
      accountIndexContent "struct variant TransactionError::InsufficientFundsForRent" content
  | "ProgramExecutionTemporarilyRestricted" =>
    .programExecutionTemporarilyRestricted <$>
      accountIndexContent "struct variant TransactionError::ProgramExecutionTemporarilyRestricted"
        content
  | _ =>
    match TransactionError.plain.find? (·.name = tag) with
    | some e => unitContent e content
    | none => .error (unknownVariant tag TransactionError.variantNames)

/-- The names of all variants of a transaction's result. -/
def resultVariantNames : List String := ["Ok", "Err"]

/-- Reads a transaction's result: `{"Ok": null}` or `{"Err": error}`. -/
def readTransactionResult (v : Value) : Reading (Except TransactionError Unit) := do
  let (tag, content) ← variant v
  match tag with
  | "Ok" => .ok <$> newtypeContent (unitContent () ∘ some) content
  | "Err" => .error <$> newtypeContent TransactionError.read content
  | _ => .error (unknownVariant tag resultVariantNames)

end PerpClient
