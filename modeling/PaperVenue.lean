import PaperVenue.Proofs.Market.Shape
import PaperVenue.Proofs.Market.Symbols
import PaperVenue.Proofs.Market.TwoShapes
import PaperVenue.Proofs.Market.TwoSources
import PaperVenue.Proofs.Exchange.CatalogKept
import PaperVenue.Proofs.Exchange.NoTrace
import PaperVenue.Proofs.Exchange.Environment
import PaperVenue.Proofs.Ledger.Submission
import PaperVenue.Proofs.Ledger.Conservation
import PaperVenue.Proofs.Strategy.OneOrder
import PaperVenue.Proofs.CommandLine.Ending
import PaperVenue.Order.Operation
import PaperVenue.Main
import PaperVenue.Strategy.Desk
import PaperVenue.Proofs.Ledger.CancelLaws
import PaperVenue.Proofs.Market.FirstOffender
import PaperVenue.Proofs.Market.Leniency
import PaperVenue.Proofs.Market.NumberAsText
import PaperVenue.Proofs.Market.Built
import PaperVenue.Proofs.Market.DecimalText
import PaperVenue.Proofs.Decimal.PlainForm
import PaperVenue.Proofs.Exchange.Balance
import PaperVenue.Proofs.Strategy.SaneOrders
import PaperVenue.Proofs.Strategy.OrderSize
import PaperVenue.Proofs.Stream.Firing
import PaperVenue.Proofs.Account.Total
import PaperVenue.Proofs.CommandLine.Exported
import PaperVenue.Proofs.CommandLine.Listing
import PaperVenue.Proofs.Stream.Reentry
