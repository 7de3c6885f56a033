import MessageCatalog.Document.Storage
import MessageCatalog.Proofs.Document.Composition
import MessageCatalog.Proofs.Document.Lookup
import MessageCatalog.Proofs.Document.Position
import MessageCatalog.Proofs.Document.Retirement
import MessageCatalog.Proofs.Document.Shape
import MessageCatalog.Proofs.Document.Sources
import MessageCatalog.Proofs.Entry.Presentation
import MessageCatalog.Proofs.Entry.Rejection
import MessageCatalog.Proofs.Escape.Units
import MessageCatalog.Proofs.Header
import MessageCatalog.Proofs.Language.Locale
import MessageCatalog.Proofs.Line.NormalForm
import MessageCatalog.Proofs.Plural.MachineWords
import MessageCatalog.Proofs.Plural.Operands
import MessageCatalog.Proofs.Plural.RangeLength
import MessageCatalog.Proofs.Plural.RuleTokens
import MessageCatalog.Proofs.Plural.Selection
import MessageCatalog.Proofs.Plural.Writing
