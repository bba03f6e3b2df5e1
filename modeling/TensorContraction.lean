import TensorContraction.Antisymmetry.Clique
import TensorContraction.Antisymmetry.Origin
import TensorContraction.Antisymmetry.Symmetrization
import TensorContraction.Ascending
import TensorContraction.Command.Arguments
import TensorContraction.Command.Path
import TensorContraction.Command.Run
import TensorContraction.Command.Workspace
import TensorContraction.Contraction.Arrangement
import TensorContraction.Contraction.Basic
import TensorContraction.Contraction.Canonical
import TensorContraction.Contraction.Violation
import TensorContraction.Export.Event
import TensorContraction.Export.Journal
import TensorContraction.Export.Rendering
import TensorContraction.Index
import TensorContraction.Ladder
import TensorContraction.Main
import TensorContraction.Record.Basic
import TensorContraction.Record.Columns
import TensorContraction.Record.Fault
import TensorContraction.Record.Grammar
import TensorContraction.Record.SignatureText
import TensorContraction.Space
import TensorContraction.Tensor
import TensorContraction.Term.Basic
import TensorContraction.Term.Coefficient
import TensorContraction.Term.Sequant
import TensorContraction.Term.Structured
import TensorContraction.Term.Tex
import TensorContraction.Text.Blank
import TensorContraction.Text.Cut
import TensorContraction.Text.Json
import TensorContraction.Text.Mark
import TensorContraction.Text.Numeral
import TensorContraction.Text.Ranges
import TensorContraction.Text.Unassigned
import TensorContraction.Text.Visible
import TensorContraction.Text.Word
import TensorContraction.Proofs.Arrangement
import TensorContraction.Proofs.Number
import TensorContraction.Proofs.Distribution
import TensorContraction.Proofs.Ascending
import TensorContraction.Proofs.SuperVertex
import TensorContraction.Proofs.Canonical
import TensorContraction.Proofs.Acceptance
import TensorContraction.Proofs.Clique
import TensorContraction.Proofs.CliqueCover
import TensorContraction.Proofs.Component
import TensorContraction.Proofs.MaximalClique
import TensorContraction.Proofs.Exchange
import TensorContraction.Proofs.Placement
import TensorContraction.Proofs.Antisymmetrizers
import TensorContraction.Proofs.Disjointness
import TensorContraction.Proofs.Journal
import TensorContraction.Proofs.Stages
import TensorContraction.Proofs.MaximalExchange
import TensorContraction.Proofs.Prefactor
import TensorContraction.Proofs.Renumbering
import TensorContraction.Proofs.Relabelling
import TensorContraction.Proofs.Layout
import TensorContraction.Proofs.Numeral
import TensorContraction.Proofs.Spelling
import TensorContraction.Proofs.Reading
import TensorContraction.Proofs.Export
import TensorContraction.Proofs.Skipping
import TensorContraction.Proofs.OriginPattern
import TensorContraction.Proofs.Appearance
import TensorContraction.Proofs.VertexOrder
import TensorContraction.Proofs.ResultOrder
import TensorContraction.Proofs.OperatorOrder
import TensorContraction.Proofs.Writing
import TensorContraction.Proofs.Transposition
import TensorContraction.Proofs.Legibility
import TensorContraction.Proofs.Interleaving
import TensorContraction.Proofs.Recovery
import TensorContraction.Proofs.Unambiguity
import TensorContraction.Proofs.Losslessness
import TensorContraction.Proofs.LayoutFree
import TensorContraction.Proofs.Concatenation
import TensorContraction.Proofs.Surroundings
import TensorContraction.Proofs.Effects
import TensorContraction.Proofs.Shortage
import TensorContraction.Proofs.Decimal
import TensorContraction.Proofs.Rearrangement
import TensorContraction.Proofs.Refusal
import TensorContraction.Proofs.Lines
import TensorContraction.Proofs.Product
import TensorContraction.Proofs.Blame
import TensorContraction.Proofs.Rejection
import TensorContraction.Proofs.Table
import TensorContraction.Proofs.FirstSlot
import TensorContraction.Proofs.Grouping
import TensorContraction.Proofs.MergeRound
import TensorContraction.Proofs.Coefficient
import TensorContraction.Proofs.Regrouping
