import Candlestick.Codec.Candle
import Candlestick.Config.Text
import Candlestick.Rollup
import Candlestick.Proofs.Key.Hash
import Candlestick.Proofs.Key.Symbol
import Candlestick.Proofs.Candle.Fold
import Candlestick.Proofs.Bucket.Content
import Candlestick.Proofs.Table.Probe
import Candlestick.Proofs.Table.WellFormed
import Candlestick.Proofs.Table.Active
import Candlestick.Proofs.Table.Refinement
import Candlestick.Proofs.Table.Rinsed
import Candlestick.Proofs.Table.Search
import Candlestick.Proofs.Rollup.Offer
import Candlestick.Proofs.Rollup.Admission
import Candlestick.Proofs.Rollup.Request
import Candlestick.Proofs.Rollup.Safety
import Candlestick.Proofs.Rollup.Feed
import Candlestick.Proofs.Rollup.Partition
import Candlestick.Proofs.Table.Invariant
import Candlestick.Proofs.Table.Occupied
import Candlestick.Proofs.Timeframe.Order
import Candlestick.Proofs.Timeframe.Floor
import Candlestick.Proofs.Rollup.Progress
import Candlestick.Proofs.Rollup.Protocol
import Candlestick.Proofs.Rollup.Journal
import Candlestick.Proofs.Rollup.Agreement
import Candlestick.Proofs.Rollup.Entry
import Candlestick.Proofs.Decimal.Number
import Candlestick.Proofs.Candle.Merge
import Candlestick.Proofs.Candle.Bar
import Candlestick.Proofs.Candle.Prices
import Candlestick.Proofs.Decimal.Quotient
import Candlestick.Proofs.Candle.Measures
import Candlestick.Proofs.Bucket.Room
import Candlestick.Proofs.Bucket.Change
import Candlestick.Proofs.Table.Insertion
import Candlestick.Proofs.Table.Holdings
import Candlestick.Proofs.Rollup.Batches
import Candlestick.Proofs.Rollup.Splitting
import Candlestick.Proofs.Rollup.Counters
import Candlestick.Proofs.Rollup.Summaries
import Candlestick.Proofs.Rollup.Alignment
import Candlestick.Proofs.Rollup.Verdict
import Candlestick.Proofs.Rollup.Reordering
import Candlestick.Proofs.Digits
import Candlestick.Proofs.Json.Token
import Candlestick.Proofs.Json.Text
import Candlestick.Proofs.Json.Record
import Candlestick.Proofs.Config.Text
import Candlestick.Proofs.Decimal.Text
import Candlestick.Proofs.Timestamp.Text
import Candlestick.Proofs.Codec.Text
