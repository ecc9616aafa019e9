import ApiScaffold.Feature.Sheet
import ApiScaffold.TypeScript.Module

namespace ApiScaffold.FeatureModule

open TypeScript

def resultSource : String := "../../../../Core/result/result"

def errorSource : String := "../../../../Core/error/custom-error"

def container (s : FeatureSheet) : Module := [
  .importing (.effects "reflect-metadata"),
  .importing (.named ["container"] "tsyringe"),
  .importing (.named [s.className ++ "Controller"] s!"./delivery/controllers/{s.name}.controller"),
  .importing (.named [s.useCase] s!"./domain/usecases/create-{s.name}.usecase"),
  .importing (.named [s.className ++ "RepositoryImpl"] s!"./data/repositories/{s.name}.repository"),
  .importing (.named [s.className ++ "DataSource"] s!"./data/datasources/{s.name}.datasource"),
  .gap,
  .running [
    s!"container.register<{s.useCase}>('{s.useCase}', {s.useCase});",
    s!"container.register<{s.className}RepositoryImpl>" ++
      s!"('{s.className}Repository', {s.className}RepositoryImpl);",
    s!"container.register<{s.className}DataSource>('{s.className}DataSource', {s.className}DataSource);",
    s!"container.register<{s.className}Controller>({s.className}Controller, {s.className}Controller);"],
  .gap,
  .exporting ["container"]]

def entity (s : FeatureSheet) : Module := [
  .declaring (.block true .classType s.className ""
    (["constructor("] ++
      indent ("public id: string," :: s.fields.map fun f => s!"public {f.name}: {f.staticType},") ++
      [") " ++ noBody]) "")]

def promised (s : FeatureSheet) : String := s!"Promise<Result<{s.className}, CustomError>>"

def promisedOrNull (s : FeatureSheet) : String := s!"Promise<Result<{s.className} | null, CustomError>>"

def repositoryInterface (s : FeatureSheet) : Module := [
  .importing (.named ["Result"] resultSource),
  .importing (.named [s.className] s!"../entity/{s.name}.entity"),
  .importing (.named ["CustomError"] errorSource),
  .gap,
  .declaring (.block true .interfaceType (s.className ++ "Repository") "" [
    s!"create({s.name}: {s.className}): {promised s};",
    s!"findById(id: string): {promisedOrNull s};"] "")]

def typedMembers (s : FeatureSheet) : List String := s.fields.map fun f => s!"{f.key}: {f.staticType};"

def accesses (object : String) (s : FeatureSheet) : List String :=
  s.fields.map fun f => s!"{object}{f.member},"

def useCase (s : FeatureSheet) : Module := [
  .importing (.named ["injectable", "inject"] "tsyringe"),
  .importing (.named [s.className] s!"../entity/{s.name}.entity"),
  .importing (.named [s.className ++ "Repository"] s!"../repositories/{s.name}.repository.interface"),
  .importing (.named ["Result"] resultSource),
  .importing (.named ["CustomError"] errorSource),
  .gap,
  .declaring (.block true .interfaceType s!"Create{s.className}Dto" "" (typedMembers s) ""),
  .gap,
  .declaring { Declaration.block true .classType s.useCase "" ([
    s!"constructor(@inject('{s.className}Repository') private {s.name}Repository: " ++
      s!"{s.className}Repository) " ++ noBody,
    ""] ++
    block s!"async execute(dto: Create{s.className}Dto): {promised s}" (
      [s!"const {s.name} = new {s.className}("] ++
      indent ("Math.random().toString(36).substring(2)," :: accesses "dto" s) ++ [
      ");",
      s!"return await this.{s.name}Repository.create({s.name});"]) "") "" with
    decorators := ["@injectable()"] }]

def model (s : FeatureSheet) : Module := [
  .importing ⟨some "mongoose", ["Schema", "Document"], "mongoose"⟩,
  .gap,
  .declaring (.block true .interfaceType ("I" ++ s.className) " extends Document"
    ("id: string;" :: typedMembers s) ""),
  .gap,
  .declaring ⟨[], false, .constant, s.className ++ "Schema", ": Schema = new Schema(\x7b",
    indent (("id: " ++ braces "type: String, required: true, unique: true" ++ ",") ::
      s.fields.map fun f =>
        f.key ++ ": " ++ braces s!"type: {f.schemaExpression}, required: true" ++ ",") ++ ["\x7d);"]⟩,
  .gap,
  .declaring ⟨[], true, .constant, s.className ++ "Model",
    s!" = mongoose.model<I{s.className}>('{s.className}', {s.className}Schema);", []⟩]

/-- A body that answers with an error when it fails; `doing` says at what. -/
def guarded (doing : String) (s : FeatureSheet) (body : List String) : List String :=
  chain ("try", body) [("catch (error)", [
    s!"return Err(new CustomError(500, 'Failed to {doing} {s.name}: ' + (error as Error).message));"])] ""

def dataSource (s : FeatureSheet) : Module := [
  .importing (.named ["injectable"] "tsyringe"),
  .importing (.named [s.className] s!"../../domain/entity/{s.name}.entity"),
  .importing (.named [s.className ++ "Model"] s!"../models/{s.name}.model"),
  .importing (.named ["Result", "Ok", "Err"] resultSource),
  .importing (.named ["CustomError"] errorSource),
  .gap,
  .declaring { Declaration.block true .classType (s.className ++ "DataSource") "" (
    block s!"async create({s.name}: {s.className}): {promised s}" (guarded "create" s [
      s!"const {s.name}Doc = new {s.className}Model({s.name});",
      s!"await {s.name}Doc.save();",
      s!"return Ok({s.name});"]) "" ++
    [""] ++
    block s!"async findById(id: string): {promisedOrNull s}" (guarded "find" s ([
      s!"const {s.name}Doc = await {s.className}Model.findOne(" ++ braces "id" ++ ");",
      s!"if (!{s.name}Doc) return Ok(null);",
      s!"return Ok(new {s.className}("] ++
      indent (s!"{s.name}Doc.id," :: accesses (s.name ++ "Doc") s) ++ [
      "));"])) "") "" with
    decorators := ["@injectable()"] }]

def repository (s : FeatureSheet) : Module := [
  .importing (.named ["injectable", "inject"] "tsyringe"),
  .importing (.named [s.className] s!"../../domain/entity/{s.name}.entity"),
  .importing (.named [s.className ++ "Repository"]
    s!"../../domain/repositories/{s.name}.repository.interface"),
  .importing (.named [s.className ++ "DataSource"] s!"../datasources/{s.name}.datasource"),
  .importing (.named ["Result"] resultSource),
  .importing (.named ["CustomError"] errorSource),
  .gap,
  .declaring { Declaration.block true .classType (s.className ++ "RepositoryImpl")
    s!" implements {s.className}Repository" ([
    s!"constructor(@inject('{s.className}DataSource') private dataSource: {s.className}DataSource) " ++
      noBody,
    ""] ++
    block s!"async create({s.name}: {s.className}): {promised s}"
      [s!"return await this.dataSource.create({s.name});"] "" ++
    [""] ++
    block s!"async findById(id: string): {promisedOrNull s}"
      ["return await this.dataSource.findById(id);"] "") "" with
    decorators := ["@injectable()"] }]

def middleware (s : FeatureSheet) : Module := [
  .importing (.named ["Request", "Response", "NextFunction"] "express"),
  .importing (.named ["z"] "zod"),
  .gap,
  .declaring ⟨[], false, .constant, s.name ++ "Schema", s!" = {s.validatorSchema};", []⟩,
  .gap,
  .declaring (.block true .constant ("validate" ++ s.className)
    " = (req: Request, res: Response, next: NextFunction) =>" (
    [s!"const parsed = {s.name}Schema.safeParse(req.body);"] ++
    block "if (!parsed.success)" [
      "const message = parsed.error.errors",
      "  .map((e) => (e.message === 'Required' ? \x60$\x7be.path.join('.')\x7d is required\x60 : e.message))",
      "  .join(', ');",
      "res.status(400).json(" ++ braces "message" ++ ");",
      "return;"] "" ++
    ["next();"]) ";")]

def controller (s : FeatureSheet) : Module := [
  .importing (.named ["injectable", "inject"] "tsyringe"),
  .importing (.named ["Request", "Response", "Router"] "express"),
  .importing (.named [s.useCase, s!"Create{s.className}Dto"]
    s!"../../domain/usecases/create-{s.name}.usecase"),
  .importing (.named ["validate" ++ s.className] s!"../middlewares/validate-{s.name}.middleware"),
  .gap,
  .declaring { Declaration.block true .classType (s.className ++ "Controller") "" ([
    "private router: Router;",
    ""] ++
    block s!"constructor(@inject('{s.useCase}') private create{s.className}UseCase: {s.useCase})" [
      "this.router = Router();",
      s!"this.router.post('/', validate{s.className}, this.create{s.className}.bind(this));"] "" ++
    [""] ++
    block s!"async create{s.className}(req: Request, res: Response): Promise<void>" ([
      s!"const dto: Create{s.className}Dto = req.body;",
      s!"const result = await this.create{s.className}UseCase.execute(dto);"] ++
      chain ("if (result.isOk())", ["res.status(201).json(result.unwrap());"]) [("else", [
        "const error = result.unwrapErr();",
        "res.status(error.statusCode).json(" ++ braces "message: error.message" ++ ");"])] "") "" ++
    [""] ++
    block "getRouter(): Router" ["return this.router;"] "") "" with
    decorators := ["@injectable()"] }]

def builtEntity (s : FeatureSheet) : String :=
  s!"const {s.name} = new {s.className}('{s.testId}', " ++
    ", ".intercalate (s.fields.map fun f => "dto" ++ f.member) ++ ");"

def testCase (title : String) (body : List String) : List String :=
  block s!"it('{title}', async () =>" body ");"

def useCaseTest (s : FeatureSheet) : Module := [
  .importing (.effects "reflect-metadata"),
  .importing (.named [s.useCase, s!"Create{s.className}Dto"]
    s!"../../../Features/{s.name}/domain/usecases/create-{s.name}.usecase"),
  .importing (.named [s.className ++ "Repository"]
    s!"../../../Features/{s.name}/domain/repositories/{s.name}.repository.interface"),
  .importing (.named ["Ok", "Err"] "../../../Core/result/result"),
  .importing (.named ["CustomError"] "../../../Core/error/custom-error"),
  .importing (.named [s.className] s!"../../../Features/{s.name}/domain/entity/{s.name}.entity"),
  .gap,
  .running (block s!"describe('{s.useCase}', () =>" ([
    s!"let create{s.className}UseCase: {s.useCase};",
    s!"let mockRepository: jest.Mocked<{s.className}Repository>;",
    ""] ++
    block "beforeEach(() =>" (
      block "mockRepository =" ["create: jest.fn(),", "findById: jest.fn(),"] ";" ++
      [s!"create{s.className}UseCase = new {s.useCase}(mockRepository);"]) ");" ++
    [""] ++
    testCase s!"should create {s.article} successfully" [
      s!"const dto: Create{s.className}Dto = {s.sample};",
      builtEntity s,
      s!"mockRepository.create.mockResolvedValue(Ok({s.name}));",
      "",
      s!"const result = await create{s.className}UseCase.execute(dto);",
      "",
      "expect(result.isOk()).toBe(true);",
      s!"expect(mockRepository.create).toHaveBeenCalledWith(expect.any({s.className}));"] ++
    [""] ++
    testCase "should return an error if repository fails" [
      s!"const dto: Create{s.className}Dto = {s.sample};",
      "const error = new CustomError(500, 'Repository error');",
      "mockRepository.create.mockResolvedValue(Err(error));",
      "",
      s!"const result = await create{s.className}UseCase.execute(dto);",
      "",
      "expect(result.isErr()).toBe(true);",
      "expect(result.unwrapErr()).toEqual(error);"]) ");")]

def posted (s : FeatureSheet) (body : String) : List String := [
  "const response = await request(app)",
  s!"  .post('{s.route}')",
  s!"  .send({body})",
  "  .set('Accept', 'application/json');"]

def badRequestCase (s : FeatureSheet) : List String :=
  if s.hasRequired then
    "" :: testCase "should return 400 for invalid input" ([
      "const invalidDto = " ++ noBody ++ ";",
      ""] ++ posted s "invalidDto" ++ [
      "",
      "expect(response.status).toBe(400);",
      "expect(response.body.message).toContain('is required');"])
  else []

def controllerTest (s : FeatureSheet) : Module := [
  .importing (.effects "reflect-metadata"),
  .importing (.default "request" "supertest"),
  .importing (.default "express" "express"),
  .importing (.named ["container"] "tsyringe"),
  .importing (.named [s.className ++ "Controller"]
    s!"../../../Features/{s.name}/delivery/controllers/{s.name}.controller"),
  .importing (.named [s.useCase]
    s!"../../../Features/{s.name}/domain/usecases/create-{s.name}.usecase"),
  .importing (.named ["Ok"] "../../../Core/result/result"),
  .importing (.named [s.className] s!"../../../Features/{s.name}/domain/entity/{s.name}.entity"),
  .gap,
  .running (block s!"describe('{s.className}Controller', () =>" ([
    "let app: express.Application;",
    s!"let mockUseCase: jest.Mocked<{s.useCase}>;",
    ""] ++
    block "beforeEach(() =>" (
      block "mockUseCase =" ["execute: jest.fn(),"] s!" as unknown as jest.Mocked<{s.useCase}>;" ++ [
      s!"container.registerInstance('{s.useCase}', mockUseCase);",
      s!"const controller = container.resolve({s.className}Controller);",
      "app = express();",
      "app.use(express.json());",
      s!"app.use('{s.route}', controller.getRouter());"]) ");" ++
    [""] ++
    block "afterEach(() =>" ["container.reset();"] ");" ++
    [""] ++
    testCase s!"should create {s.article} and return 201" ([
      s!"const dto = {s.sample};",
      builtEntity s,
      s!"mockUseCase.execute.mockResolvedValue(Ok({s.name}));",
      ""] ++ posted s "dto" ++ [
      "",
      "expect(response.status).toBe(201);"] ++
      call "expect(response.body).toEqual"
        (s!"id: '{s.testId}'," :: s.fields.map fun f => s!"{f.key}: dto{f.member},") ";" ++
      ["expect(mockUseCase.execute).toHaveBeenCalledWith(dto);"]) ++
    badRequestCase s) ");")]

end ApiScaffold.FeatureModule
