import Scaffold.Artifact.Data
import Scaffold.Template.Text

/-!
# Models, migrations and form requests

The text of the three classes that are made from the fields of an entity.
-/

namespace Scaffold.Template

/-! ## Models -/

/-- The method that leads to a related model, after a blank line. -/
def accessorLines (accessor : Accessor) : List String :=
  ["",
    s!"    public function {accessor.method}()",
    "    \x7b",
    s!"        return $this->{accessor.kind.keyword}({accessor.related}::class);",
    "    \x7d"]

/-- The line that lists the fields which may be filled from a form. -/
def fillableLine (fillable : List String) : String :=
  s!"    protected $fillable = [{quotedList fillable}];"

/-- The class of a model. -/
def modelText (model : Model) : String :=
  unlines <|
    ["<?php",
      "",
      "namespace App\\Models;",
      "",
      "use Illuminate\\Database\\Eloquent\\Factories\\HasFactory;",
      "use Illuminate\\Database\\Eloquent\\Model;"] ++
    (if model.softDeletes then ["use Illuminate\\Database\\Eloquent\\SoftDeletes;"] else []) ++
    ["",
      s!"class {model.className} extends Model",
      "\x7b",
      if model.softDeletes then "    use HasFactory, SoftDeletes;" else "    use HasFactory;",
      "",
      fillableLine model.fillable] ++
    (if model.softDeletes then ["    protected $dates = ['deleted_at'];"] else []) ++
    model.accessors.flatMap accessorLines ++
    ["\x7d"]

/-! ## Migrations -/

/-- The statement that declares a column. -/
def columnStatement : Column → String
  | .id => "$table->id();"
  | .string name => s!"$table->string({quoted name});"
  | .text name => s!"$table->text({quoted name})->nullable();"
  | .integer name => s!"$table->integer({quoted name});"
  | .boolean name => s!"$table->boolean({quoted name});"
  | .choice name values => s!"$table->enum({quoted name}, [{quotedList values}]);"
  | .custom name columnType => s!"$table->{columnType}({quoted name});"
  | .softDeletes => "$table->softDeletes();"
  | .timestamps => "$table->timestamps();"

/-- The class of a migration. -/
def migrationText (migration : Migration) : String :=
  unlines <|
    ["<?php",
      "",
      "use Illuminate\\Database\\Migrations\\Migration;",
      "use Illuminate\\Database\\Schema\\Blueprint;",
      "use Illuminate\\Support\\Facades\\Schema;",
      "",
      "return new class extends Migration \x7b",
      "    public function up()",
      "    \x7b",
      s!"        Schema::create({quoted migration.table}, function (Blueprint $table) \x7b"] ++
    (migration.columns.map fun column => "            " ++ columnStatement column) ++
    ["        \x7d);",
      "    \x7d",
      "",
      "    public function down()",
      "    \x7b",
      s!"        Schema::dropIfExists({quoted migration.table});",
      "    \x7d",
      "\x7d;"]

/-! ## Form requests -/

/-- The constraints of a rule in one text. -/
def ruleText (rule : Rule) : String :=
  "|".intercalate rule.constraints

/-- The line that gives the rule of a field. -/
def ruleLine (rule : FieldRule) : String :=
  s!"            {quoted rule.field} => {quoted (ruleText rule.rule)},"

/-- The class of a form request. -/
def requestText (request : FormRequest) : String :=
  unlines <|
    ["<?php",
      "",
      "namespace App\\Http\\Requests;",
      "",
      "use Illuminate\\Foundation\\Http\\FormRequest;",
      "",
      s!"class {request.className} extends FormRequest",
      "\x7b",
      "    public function authorize()",
      "    \x7b",
      "        return true;",
      "    \x7d",
      "",
      "    public function rules()",
      "    \x7b",
      "        return ["] ++
    request.rules.map ruleLine ++
    ["        ];",
      "    \x7d",
      "\x7d"]

end Scaffold.Template
