import TemplateCheck.Main
import TemplateCheck.Session
import TemplateCheck.Proofs.Path.Leaf
import TemplateCheck.Proofs.Path.Evaluate
import TemplateCheck.Proofs.Path.Match
import TemplateCheck.Proofs.Validator.Verdict
import TemplateCheck.Proofs.Template.Cover
import TemplateCheck.Proofs.Document.Own
import TemplateCheck.Proofs.Data.Within
import TemplateCheck.Proofs.Path.Monotone
import TemplateCheck.Proofs.Validator.Monotone
import TemplateCheck.Proofs.Template.Uniform
import TemplateCheck.Proofs.Template.Filled
import TemplateCheck.Proofs.Validator.Generalise
import TemplateCheck.Proofs.Session.Ledger
import TemplateCheck.Proofs.Template.Determined
import TemplateCheck.Proofs.Validator.Quotes
import TemplateCheck.Proofs.Compile.Written
import TemplateCheck.Proofs.Compile.Counters
import TemplateCheck.Proofs.Validator.Integers
import TemplateCheck.Proofs.Path.Grammar
import TemplateCheck.Proofs.Command.AllOrNothing
import TemplateCheck.Proofs.Validator.Scalars
import TemplateCheck.Proofs.Validator.Calls
import TemplateCheck.Proofs.Document.Json
import TemplateCheck.Proofs.Document.Lines
import TemplateCheck.Proofs.Command.Settings
import TemplateCheck.Proofs.Source.Input
import TemplateCheck.Proofs.Path.Viable
import TemplateCheck.Proofs.Source.Compressed
import TemplateCheck.Proofs.Template.Visitor
import TemplateCheck.Proofs.Compile.Trail
import TemplateCheck.Proofs.Path.Quoted
import TemplateCheck.Proofs.Decimal.Grammar
