import PerpClient.Account.Codec
import PerpClient.Program
/-!
# Decoding accounts

An account's bytes are an 8-byte discriminator followed by the body of its record. Which record
layout an account holds is its `AccountKind`; an oracle's kind also names the feed model it is
read with. Decoding checks the discriminator's room, then reads the body (`Codec`); bytes after
the body are ignored.

The quote asset is priced at exactly one unit and has no feed account, so decoding it ignores
the bytes altogether (`quoteAssetPrice`).
-/

namespace PerpClient

/-- Which record layout an account holds. -/
inductive AccountKind where
  | state
  | perpMarket
  | spotMarket
  | oracle (source : OracleSource)
  | user
  deriving DecidableEq, Repr, Inhabited

/-- The kind as a debugging text shows it: `PerpMarket`, `Oracle(PythPull)`. -/
def AccountKind.describe : AccountKind → String
  | .state => "State"
  | .perpMarket => "PerpMarket"
  | .spotMarket => "SpotMarket"
  | .oracle s => s!"Oracle({s.name})"
  | .user => "User"

/-- A decoded program account. -/
inductive DecodedAccount where
  | state (s : ProgramState)
  | perpMarket (m : PerpMarket)
  | spotMarket (m : SpotMarket)
  | oracle (p : OraclePrice)
  | user (u : UserAccount)
  deriving DecidableEq, Inhabited

/-- The layout a decoded account was read with. -/
def DecodedAccount.kind : DecodedAccount → AccountKind
  | .state _ => .state
  | .perpMarket _ => .perpMarket
  | .spotMarket _ => .spotMarket
  | .oracle p => .oracle p.source
  | .user _ => .user

/-- The length of the discriminator in front of every record. -/
def discriminatorLength : Nat := 8

/-- Why an account's bytes do not decode. -/
inductive DecodeError where
  /-- Fewer bytes than the discriminator takes. -/
  | shorterThanDiscriminator (length : Nat)
  /-- The body does not read as the record. -/
  | layout (e : LayoutError)
  deriving DecidableEq

/-- The text of a decode error. -/
def DecodeError.message : DecodeError → String
  | .shorterThanDiscriminator n => s!"account data is {n} bytes, shorter than the discriminator"
  | .layout e => e.message

/-- The price of the quote asset: one unit, full confidence, always sufficient. -/
def quoteAssetPrice : OraclePrice :=
  { price := Program.pricePrecision, confidence := 1, slot := 0,
    hasSufficientNumberOfDataPoints := true, source := .quoteAsset }

/-- Reads a record body with its layout. -/
def readBody {α : Type} (r : Layout.Reader α) (body : List UInt8) : Except DecodeError α :=
  match r.run' body with
  | .ok a => .ok a
  | .error e => .error (.layout e)

/-- Decodes an account of a kind from its bytes. -/
def decodeAccount (kind : AccountKind) (data : List UInt8) : Except DecodeError DecodedAccount :=
  match kind with
  | .oracle .quoteAsset => .ok (.oracle quoteAssetPrice)
  | _ =>
    if data.length < discriminatorLength then .error (.shorterThanDiscriminator data.length)
    else
      let body := data.drop discriminatorLength
      match kind with
      | .state => (readBody ProgramState.read body).map .state
      | .perpMarket => (readBody PerpMarket.read body).map .perpMarket
      | .spotMarket => (readBody SpotMarket.read body).map .spotMarket
      | .user => (readBody UserAccount.read body).map .user
      | .oracle source =>
        (readBody OracleFeed.read body).map fun feed => .oracle (OraclePrice.ofFeed feed source)

/-- The bytes of an account: the zero discriminator, then the record body. -/
def encodeAccount (body : List UInt8) : List UInt8 :=
  List.replicate discriminatorLength 0 ++ body

/-- The body bytes of a decoded account's record; a price is written as its feed. -/
def DecodedAccount.write : DecodedAccount → List UInt8
  | .state s => s.write
  | .perpMarket m => m.write
  | .spotMarket m => m.write
  | .oracle p => p.feed.write
  | .user u => u.write

end PerpClient
