import ApiClient.Main
import ApiClient.Proofs.Client.ClosedTypes
import ApiClient.Proofs.Client.ComponentNames
import ApiClient.Proofs.Command.Failure
import ApiClient.Proofs.Types.Completeness
import ApiClient.Proofs.Route.Node
import ApiClient.Proofs.Route.Trie
import ApiClient.Proofs.Client.ScopeTree
import ApiClient.Proofs.Document.Operations
import ApiClient.Proofs.Client.Calls
import ApiClient.Proofs.Files.Writing
import ApiClient.Proofs.Command.Success
import ApiClient.Proofs.Template.Characters
import ApiClient.Proofs.Template.Marker
import ApiClient.Proofs.Template.Recoding
import ApiClient.Proofs.Template.Building
import ApiClient.Proofs.Template.Printing
import ApiClient.Proofs.Client.FileTable
import ApiClient.Proofs.Document.Faults
import ApiClient.Proofs.Document.Referable
import ApiClient.Proofs.Document.Edits
import ApiClient.Proofs.Types.Trail
import ApiClient.Proofs.Client.Signature
import ApiClient.Proofs.Document.Chain
import ApiClient.Proofs.Dialect.UrlExpression
import ApiClient.Proofs.Dialect.RootComment
import ApiClient.Proofs.Client.DataClasses
import ApiClient.Proofs.Naming.Identifier
import ApiClient.Proofs.Client.TypeName
import ApiClient.Proofs.Template.Elision
import ApiClient.Proofs.Template.Checking
import ApiClient.Proofs.Dialect.ScopeLayout
import ApiClient.Proofs.Dialect.TypeKeys
import ApiClient.Proofs.Dialect.Rendering
import ApiClient.Proofs.Types.Homonym
import ApiClient.Proofs.Template.LineEnds
import ApiClient.Proofs.Types.Items
import ApiClient.Proofs.Route.Parameter
import ApiClient.Proofs.Naming.Namespace
import ApiClient.Proofs.Dialect.KotlinLiteral
import ApiClient.Proofs.Client.FreeParts
import ApiClient.Proofs.Document.Sameness
import ApiClient.Proofs.Template.Construction
